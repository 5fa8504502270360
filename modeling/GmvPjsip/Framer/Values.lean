import GmvPjsip.Framer.RoundTrip
import GmvPjsip.Framer.Shim

/-!
# The lines both framers read

`content_length` (`src/io.rs`) decodes the header block and works on characters;
`gmv_sip_content_length` (`shim_transport.inc`) scans its bytes. The two are compared on one list:
`lengthValues` holds the values of the lines named `Content-Length`, in their order.

* `SpellsLength`: a value spells a number, between white space and with an optional plus sign.
  `readUsize_eq_some_iff`: these are the values that `content_length` accepts.
* `contentLength_eq`: if the block is UTF-8, `content_length` returns the first of them that parses,
  and otherwise nothing.
* `sipContentLength_eq`: the shim reads the first of them with `strtoul`, if it has less than 32
  bytes.
-/

namespace GmvPjsip.Framer

open GmvPjsip.Lib GmvPjsip.Auth GmvPjsip.Calls

/-- The values of the lines named `Content-Length`, in their order. -/
def lengthValues (headers : Bytes) : List Bytes :=
  (headers.splitOn 10).filterMap fun line => headerValue (ascii "Content-Length") (stripCr line)

/-- The number a value spells for `content_length`. -/
def readUsize (value : Bytes) : Option ℕ := (fromUtf8 value).bind fun text => parseUsize (trim text)

/-- A value spells a number: white space, an optional plus sign, digits that fit a `usize`, and white
space again. -/
def SpellsLength (value : Bytes) (n : ℕ) : Prop :=
  ∃ front number back, value = utf8 (front ++ (number ++ back)) ∧
    (∀ c ∈ front ++ back, isWhitespace c) ∧ SpellsUsize number n

/-- **`content_length` accepts the values that spell a number.** -/
theorem readUsize_eq_some_iff {value : Bytes} {n : ℕ} :
    readUsize value = some n ↔ SpellsLength value n := by
  rw [readUsize, Option.bind_eq_some_iff]
  constructor
  · rintro ⟨text, htext, hparse⟩
    obtain rfl := fromUtf8_eq_some_iff.mp htext
    obtain ⟨front, number, back, rfl, hnumber⟩ := parseUsize_trim_iff.mp hparse
    exact ⟨front, number, back, rfl, hnumber⟩
  · rintro ⟨front, number, back, rfl, hnumber⟩
    exact ⟨_, fromUtf8_utf8 _, parseUsize_trim_iff.mpr ⟨front, number, back, rfl, hnumber⟩⟩

/-! ## Names and values -/

/-- The lower-case form of a byte is that of its character: only ASCII letters change. -/
theorem utf8EncodeChar_toLower (c : Char) :
    (String.utf8EncodeChar c).map toLowerAscii = String.utf8EncodeChar c.toLower := by
  by_cases hc : c.toNat < 128
  · have hall : ∀ n < 128, (String.utf8EncodeChar (Char.ofNat n)).map toLowerAscii =
        String.utf8EncodeChar (Char.ofNat n).toLower := by decide +kernel
    simpa using hall c.toNat hc
  · have hkeep : ∀ b ∈ String.utf8EncodeChar c, toLowerAscii b = b := by
      intro b hb
      have := le_of_mem_utf8EncodeChar (not_lt.mp hc) hb
      refine if_neg ?_
      rw [UInt8.le_iff_toNat_le, UInt8.le_iff_toNat_le]
      simp
      omega
    have hlower : c.toLower = c := by
      refine dif_neg ?_
      rintro ⟨-, hle⟩
      have hz : c.toNat ≤ 90 := UInt32.le_iff_toNat_le.mp hle
      omega
    rw [hlower, List.map_congr_left hkeep, List.map_id']

/-- The shim and the socket layer compare names alike. -/
theorem stricmp_utf8 (a b : List Char) : stricmp (utf8 a) (utf8 b) = eqIgnoreAsciiCase a b := by
  rw [stricmp, eqIgnoreAsciiCase, map_utf8 utf8EncodeChar_toLower, map_utf8 utf8EncodeChar_toLower]
  exact decide_eq_decide.mpr utf8_injective.eq_iff

/-- A blank, as a character. -/
def isBlankChar (c : Char) : Bool := c = ' ' || c = '\t'

theorem isBlank_of_mem (c : Char) (b : UInt8) (hb : b ∈ String.utf8EncodeChar c) :
    isBlank b = isBlankChar c := by
  have hspace : b = 32 ↔ c = ' ' := by
    constructor
    · rintro rfl
      exact eq_of_mem_utf8EncodeChar (c := ' ') rfl hb
    · rintro rfl
      exact List.mem_singleton.mp hb
  have htab : b = 9 ↔ c = '\t' := by
    constructor
    · rintro rfl
      exact eq_of_mem_utf8EncodeChar (c := '\t') rfl hb
    · rintro rfl
      exact List.mem_singleton.mp hb
  simp only [isBlank, isBlankChar, hspace, htab]

theorem isWhitespace_of_isBlankChar {c : Char} (h : isBlankChar c) : isWhitespace c := by
  simp only [isBlankChar, Bool.or_eq_true, decide_eq_true_eq] at h
  rcases h with rfl | rfl <;> decide

/-- The blanks the shim takes off a value make no difference to `content_length`. -/
theorem readUsize_trimBlanks (value : List Char) :
    readUsize (trimBlanks (utf8 value)) = parseUsize (trim value) := by
  have hfront := List.takeWhile_append_dropWhile (p := isBlankChar) (l := value)
  have hback := List.rdropWhile_append_rtakeWhile (p := isBlankChar)
    (l := value.dropWhile isBlankChar)
  have htrim : trim ((value.dropWhile isBlankChar).rdropWhile isBlankChar) = trim value := by
    conv_rhs => rw [← hfront, ← hback]
    refine (trim_append ?_ ?_).symm
    · exact fun c hc => isWhitespace_of_isBlankChar (List.mem_takeWhile_imp hc)
    · exact fun c hc => isWhitespace_of_isBlankChar (List.mem_rtakeWhile_imp hc)
  rw [readUsize, trimBlanks, dropWhile_utf8 isBlank_of_mem, rdropWhile_utf8 isBlank_of_mem,
    fromUtf8_utf8, Option.bind_some, htrim]

/-- Blanks are characters of their own. -/
theorem exists_utf8_of_isBlank (blanks : Bytes) (h : ∀ b ∈ blanks, isBlank b) :
    ∃ text, blanks = utf8 text := by
  induction blanks with
  | nil => exact ⟨[], rfl⟩
  | cons b rest ih =>
    obtain ⟨text, rfl⟩ := ih fun b' hb' => h b' (List.mem_cons_of_mem b hb')
    have hb : b = 32 ∨ b = 9 := by
      simpa [isBlank] using h b List.mem_cons_self
    rcases hb with rfl | rfl
    · exact ⟨' ' :: text, rfl⟩
    · exact ⟨'\t' :: text, rfl⟩

/-- A value spells a number with its blanks exactly if it does so without them. -/
theorem spellsLength_trimBlanks {value : Bytes} {n : ℕ} :
    SpellsLength (trimBlanks value) n ↔ SpellsLength value n := by
  have hwhole : ∀ text, value = utf8 text → readUsize (trimBlanks value) = readUsize value := by
    rintro text rfl
    rw [readUsize_trimBlanks, readUsize, fromUtf8_utf8, Option.bind_some]
  rw [← readUsize_eq_some_iff, ← readUsize_eq_some_iff]
  constructor
  · intro hread
    obtain ⟨front, number, back, htrim, -⟩ := readUsize_eq_some_iff.mp hread
    -- what is trimmed off is text, and so is the whole value
    obtain ⟨left, hleft⟩ := exists_utf8_of_isBlank (value.takeWhile isBlank)
      fun b hb => List.mem_takeWhile_imp hb
    obtain ⟨right, hright⟩ := exists_utf8_of_isBlank
      ((value.dropWhile isBlank).rtakeWhile isBlank) fun b hb => List.mem_rtakeWhile_imp hb
    have hvalue : value = utf8 (left ++ (front ++ (number ++ back) ++ right)) := by
      rw [utf8_append, utf8_append, ← htrim, ← hleft, ← hright, trimBlanks,
        List.rdropWhile_append_rtakeWhile, List.takeWhile_append_dropWhile]
    rw [← hwhole _ hvalue]
    exact hread
  · intro hread
    obtain ⟨front, number, back, hvalue, -⟩ := readUsize_eq_some_iff.mp hread
    rw [hwhole _ hvalue]
    exact hread

theorem contentLengthName_bytes : ascii "Content-Length" = utf8 contentLengthName := by decide

/-- **Both read a line alike**: what `content_length` takes from it is what it takes from the value
the shim finds in it. -/
theorem contentLengthLine_eq (line : List Char) : contentLengthLine line =
      (headerValue (ascii "Content-Length") (utf8 line)).bind readUsize := by
  rcases hv : headerValue (ascii "Content-Length") (utf8 line) with _ | v
  · refine FramedMessage.contentLengthLine_of_not_names ?_
    rintro ⟨name, value, rfl, hname⟩
    have hsome : headerValue (ascii "Content-Length") (utf8 (name ++ ':' :: value)) =
        some (trimBlanks (utf8 value)) := by
      refine headerValue_eq_some_iff.mpr ⟨utf8 name, utf8 value, ?_, ?_, rfl⟩
      · rw [utf8_append, utf8_cons]
        rfl
      · rw [contentLengthName_bytes, stricmp_utf8]
        exact hname
    rw [hsome] at hv
    cases hv
  · obtain ⟨name', value', hline, hname, rfl⟩ := headerValue_eq_some_iff.mp hv
    obtain ⟨name, value, rfl, rfl, rfl⟩ := utf8_eq_append_cons (c := ':') rfl hline
    rw [contentLengthName_bytes, stricmp_utf8] at hname
    rw [contentLengthLine, splitOnce_append (FramedMessage.colon_notMem_name hname)]
    simp only [Option.bind_eq_bind, Option.bind_some, hname, if_true, readUsize_trimBlanks]

/-! ## The ends of lines -/

/-- White space at the end of a line makes no difference. -/
theorem contentLengthLine_concat {c : Char} (hc : isWhitespace c) (line : List Char) :
    contentLengthLine (line ++ [c]) = contentLengthLine line := by
  have hcolon : c ≠ ':' := by
    rintro rfl
    exact absurd hc (by decide)
  rw [contentLengthLine, contentLengthLine, splitOnce_concat hcolon]
  rcases splitOnce ':' line with _ | ⟨name, value⟩
  · rfl
  · have htrim : trim ([] ++ (value ++ [c])) = trim value :=
      trim_append (by simp) (by simpa using hc)
    rw [List.nil_append] at htrim
    simp [htrim]

/-- So the end of a line makes none. -/
theorem contentLengthLine_stripLineEnd (line : List Char) :
    contentLengthLine (stripLineEnd (line ++ ['\n'])) = contentLengthLine line := by
  rw [stripLineEnd, List.getLast?_concat, if_pos rfl, List.dropLast_concat]
  split_ifs with hcr
  · obtain ⟨front, rfl⟩ := List.getLast?_eq_some_iff.mp hcr
    rw [List.dropLast_concat, contentLengthLine_concat (by decide)]
  · rfl

/-- `content_length` reads the same off the lines of `str::lines` and off the pieces between line
feeds. -/
theorem findSome?_lines (text : List Char) : (lines text).findSome? contentLengthLine =
      (text.splitOn '\n').findSome? contentLengthLine := by
  induction hlen : text.length using Nat.strong_induction_on generalizing text with
  | _ n ih =>
    by_cases hmem : '\n' ∈ text
    · obtain ⟨line, rest, rfl, hline⟩ := List.eq_append_cons_of_mem hmem
      have hrest := ih rest.length (by rw [← hlen]; simp; omega) rest rfl
      rw [lines, splitInclusive_append hline, List.map_cons, List.findSome?_cons,
        splitOn_append_cons hline, List.findSome?_cons, contentLengthLine_stripLineEnd, ← hrest]
      rfl
    · rw [splitOn_of_notMem hmem]
      by_cases hne : text = []
      · subst hne
        rfl
      · rw [lines, splitInclusive_line hne hmem, List.map_singleton, stripLineEnd_line hmem]

/-- The carriage return the shim strips makes none either. -/
theorem stripCr_utf8 (line : List Char) :
    (headerValue (ascii "Content-Length") (stripCr (utf8 line))).bind readUsize =
      contentLengthLine line := by
  rcases List.eq_nil_or_concat line with rfl | ⟨front, c, rfl⟩
  · rw [contentLengthLine_eq]
    rfl
  · rw [List.concat_eq_append, stripCr]
    split_ifs with hcr
    · have hc : c = '\r' := by
        rw [utf8_concat, List.getLast?_append_of_ne_nil _ String.utf8EncodeChar_ne_nil] at hcr
        exact eq_of_mem_utf8EncodeChar (c := '\r') rfl (List.mem_of_getLast? hcr)
      subst hc
      have hdrop : (utf8 (front ++ ['\r'])).dropLast = utf8 front := by
        rw [utf8_concat]
        exact List.dropLast_concat
      rw [hdrop, contentLengthLine_concat (by decide), contentLengthLine_eq]
    · rw [contentLengthLine_eq]

/-! ## The header block -/

/-- **What `content_length` returns**: the first value that is a number, provided that all bytes of
the header block are UTF-8. -/
theorem contentLength_eq (headers : Bytes) : contentLength headers =
      if (fromUtf8 headers).isSome then (lengthValues headers).findSome? readUsize else none := by
  rw [contentLength]
  rcases htext : fromUtf8 headers with _ | text
  · rfl
  · obtain rfl := fromUtf8_eq_some_iff.mp htext
    simp only [Option.bind_eq_bind, Option.bind_some, Option.isSome_some, if_true]
    rw [findSome?_lines, lengthValues, splitOn_utf8 (c := '\n') (b := 10) rfl, ← List.head?_filterMap,
      ← List.head?_filterMap, List.filterMap_filterMap, List.filterMap_map]
    congr 2
    exact funext fun line => (stripCr_utf8 line).symm

/-- **What the shim reads**: the first value, whatever it is. -/
theorem sipContentLength_eq (headers : Bytes) : sipContentLength headers =
      match (lengthValues headers).head? with
      | none => 0
      | some value => if 32 ≤ value.length then 0 else (strtoul value).getD 0 := by
  rw [sipContentLength, packetHeaderCopy, lengthValues, List.head?_filterMap]
  rcases (headers.splitOn 10).findSome? _ with _ | value
  · rfl
  · simp only
    split_ifs <;> rfl

/-! ## Digits -/

/-- Both read a value that consists of digits, of which there are not too many. -/
theorem readUsize_utf8_digits {digits : List Char} (hne : digits ≠ [])
    (hd : ∀ c ∈ digits, c.isDigit) (hfit : decimalValue 0 digits < usizeSize) :
    readUsize (utf8 digits) = some (decimalValue 0 digits) := by
  have htrim : trim digits = digits :=
    trim_eq_self fun c hc => isWhitespace_of_isDigit (hd c hc)
  rw [readUsize, fromUtf8_utf8, Option.bind_some, htrim, parseUsize_eq_some hne hd hfit]

end GmvPjsip.Framer
