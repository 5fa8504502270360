import GmvPjsip.Framer.Values

/-!
# The spellings of `Content-Length`

SIP allows a field to be spelled in several ways. `LengthField` is a `Content-Length` field as the
grammar has it: the full name or the compact form `l`, in any letter case, blanks on either side of
the colon, and digits. `HeaderBlock` is a header block of lines that end in CRLF, exactly one of
which is such a field; the others hold any bytes but CR and LF.

* `DeclaresLength line n`: the line reads as a number to `content_length`, in terms of its text. This is
  more than the grammar allows, as a plus sign or other white space, and less, as the compact form.
* `HeaderBlock.contentLength_bytes`: `content_length` goes through the lines one by one, if the block
  is UTF-8.
* `LengthField.declaresLength_line`: off the field it reads the number only if the full name stands
  directly in front of the colon.
* `content_length_iff` puts this together, and `spellings_missed` gives a block for every way in
  which it can fail.
-/

namespace GmvPjsip.Framer

open GmvPjsip.Lib GmvPjsip.Auth GmvPjsip.Calls

/-! ## The field -/

/-- A `Content-Length` field, by the grammar of SIP. -/
structure LengthField where
  /-- The name, in full or as the compact form. -/
  name : Bytes
  /-- The blanks in front of the colon. -/
  before : Bytes
  /-- The blanks behind the colon. -/
  blanks : Bytes
  /-- The value. -/
  digits : List Char
  name_eq : stricmp name (ascii "Content-Length") ∨ stricmp name (ascii "l")
  blank : ∀ b ∈ before ++ blanks, isBlank b
  digits_ne : digits ≠ []
  decimal : ∀ c ∈ digits, c.isDigit
  fits : decimalValue 0 digits < usizeSize

/-- A line declares a length to `content_length`: the full name, in any letter case, stands directly in
front of a colon, and what is behind the colon spells a number. -/
def DeclaresLength (line : Bytes) (n : ℕ) : Prop :=
  ∃ name value, line = name ++ 58 :: value ∧ stricmp name (ascii "Content-Length") ∧
    SpellsLength value n

/-- The number `content_length` takes from a line, as the bytes of the line show it. -/
def readLine (line : Bytes) : Option ℕ :=
  (headerValue (ascii "Content-Length") line).bind readUsize

/-- It takes the number that the line declares. -/
theorem readLine_eq_some_iff {line : Bytes} {n : ℕ} :
    readLine line = some n ↔ DeclaresLength line n := by
  rw [readLine, Option.bind_eq_some_iff]
  constructor
  · rintro ⟨v, hv, hread⟩
    obtain ⟨name, value, rfl, hname, rfl⟩ := headerValue_eq_some_iff.mp hv
    exact ⟨name, value, rfl, hname, spellsLength_trimBlanks.mp (readUsize_eq_some_iff.mp hread)⟩
  · rintro ⟨name, value, rfl, hname, hspells⟩
    refine ⟨trimBlanks value, headerValue_eq_some_iff.mpr ⟨name, value, rfl, hname, rfl⟩, ?_⟩
    exact readUsize_eq_some_iff.mpr (spellsLength_trimBlanks.mpr hspells)

namespace LengthField

/-- The field on the wire. -/
def line (f : LengthField) : Bytes := (f.name ++ f.before) ++ 58 :: (f.blanks ++ utf8 f.digits)

/-- The number it declares. -/
def value (f : LengthField) : ℕ := decimalValue 0 f.digits

/-- The name is spelled in full and the colon follows directly. -/
def Direct (f : LengthField) : Prop := stricmp f.name (ascii "Content-Length") ∧ f.before = []

instance (f : LengthField) : Decidable f.Direct := inferInstanceAs (Decidable (_ ∧ _))

variable (f : LengthField)

theorem colon_notMem_of_stricmp {a : Bytes} (h : stricmp a (ascii "Content-Length")) : 58 ∉ a :=
  fun hb => absurd (mem_map_of_stricmp h hb) (by decide)

/-- The first colon of the line is the one behind the name. -/
theorem colon_notMem : 58 ∉ f.name ++ f.before := by
  intro hmem
  rcases List.mem_append.mp hmem with hb | hb
  · rcases f.name_eq with hname | hname
    · exact colon_notMem_of_stricmp hname hb
    · exact absurd (mem_map_of_stricmp hname hb) (by decide)
  · exact absurd (f.blank 58 (List.mem_append_left _ hb)) (by decide)

/-- A name with the blanks behind it is the full name only if there are none and it is spelled in
full. -/
theorem stricmp_name_before_iff : stricmp (f.name ++ f.before) (ascii "Content-Length") ↔ f.Direct := by
  constructor
  · intro h
    have hblanks : ∀ b ∈ f.before, False := by
      intro b hb
      have hblank := f.blank b (List.mem_append_left _ hb)
      have hname := mem_map_of_stricmp h (List.mem_append_right f.name hb)
      simp only [isBlank, Bool.or_eq_true, decide_eq_true_eq] at hblank
      rcases hblank with rfl | rfl
      · exact absurd hname (by decide)
      · exact absurd hname (by decide)
    have hbefore : f.before = [] := List.eq_nil_iff_forall_not_mem.mpr hblanks
    rw [hbefore, List.append_nil] at h
    exact ⟨h, hbefore⟩
  · rintro ⟨hname, hbefore⟩
    rwa [hbefore, List.append_nil]

/-- The value spells the number of the field. -/
theorem spellsLength_value : SpellsLength (f.blanks ++ utf8 f.digits) f.value := by
  refine spellsLength_trimBlanks.mp ?_
  have hdigit : ∀ b ∈ utf8 f.digits, ¬ isBlank b = true := by
    intro b hb hblank
    have hd := isDigit_of_mem_utf8 f.decimal hb
    simp only [isBlank, Bool.or_eq_true, decide_eq_true_eq] at hblank
    rcases hblank with rfl | rfl
    · exact absurd hd (by decide)
    · exact absurd hd (by decide)
  have hfront : (utf8 f.digits).dropWhile isBlank = utf8 f.digits := by
    rw [List.dropWhile_eq_self_iff]
    exact fun hpos => hdigit _ (List.getElem_mem hpos)
  have hback : (utf8 f.digits).rdropWhile isBlank = utf8 f.digits := by
    rw [List.rdropWhile_eq_self_iff]
    exact fun hne => hdigit _ (List.getLast_mem hne)
  rw [trimBlanks, List.dropWhile_append_of_pos fun b hb => f.blank b (List.mem_append_right _ hb),
    hfront, hback]
  exact readUsize_eq_some_iff.mp (readUsize_utf8_digits f.digits_ne f.decimal f.fits)

/-- **The field declares its number to `content_length`** if the full name stands directly in front of
the colon, and otherwise no number. -/
theorem declaresLength_line {n : ℕ} : DeclaresLength f.line n ↔ f.Direct ∧ n = f.value := by
  constructor
  · rintro ⟨name, value, hline, hname, hspells⟩
    -- the first colon of the line is the one behind the name
    obtain ⟨hwhole, rfl⟩ := (append_cons_inj f.colon_notMem (colon_notMem_of_stricmp hname)).mp hline
    refine ⟨f.stricmp_name_before_iff.mp (hwhole ▸ hname), Option.some.inj ?_⟩
    rw [← readUsize_eq_some_iff.mpr hspells, readUsize_eq_some_iff.mpr f.spellsLength_value]
  · rintro ⟨hdirect, rfl⟩
    exact ⟨f.name ++ f.before, f.blanks ++ utf8 f.digits, rfl,
      f.stricmp_name_before_iff.mpr hdirect, f.spellsLength_value⟩

end LengthField

/-- The line is a `Content-Length` field, by the grammar of SIP. -/
def IsLengthField (line : Bytes) : Prop := ∃ f : LengthField, f.line = line

/-! ## The header block -/

/-- A header block of which exactly one line is a `Content-Length` field. -/
structure HeaderBlock where
  /-- The lines in front of the field. -/
  before : List Bytes
  field : LengthField
  /-- The lines behind it. -/
  after : List Bytes
  others : ∀ line ∈ before ++ after, ¬ IsLengthField line
  unbroken : ∀ line ∈ before ++ after, 13 ∉ line ∧ 10 ∉ line

theorem LengthField.unbroken (f : LengthField) : 13 ∉ f.line ∧ 10 ∉ f.line := by
  have hmem : ∀ b ∈ f.line, b ≠ 13 ∧ b ≠ 10 := by
    intro b hb
    rw [LengthField.line, List.mem_append, List.mem_append, List.mem_cons, List.mem_append] at hb
    have hblank : isBlank b → b ≠ 13 ∧ b ≠ 10 := by
      rintro h
      constructor <;> rintro rfl <;> exact absurd h (by decide)
    rcases hb with (hb | hb) | rfl | hb | hb
    · have hname : toLowerAscii b ∈ (ascii "Content-Length").map toLowerAscii ∨
          toLowerAscii b ∈ (ascii "l").map toLowerAscii :=
        f.name_eq.imp (mem_map_of_stricmp · hb) (mem_map_of_stricmp · hb)
      constructor <;> rintro rfl <;> exact absurd hname (by decide)
    · exact hblank (f.blank b (List.mem_append_left _ hb))
    · decide
    · exact hblank (f.blank b (List.mem_append_right _ hb))
    · have hd := isDigit_of_mem_utf8 f.decimal hb
      constructor <;> rintro rfl <;> exact absurd hd (by decide)
  exact ⟨fun h => (hmem 13 h).1 rfl, fun h => (hmem 10 h).2 rfl⟩

/-- Lines joined by CRLF are the lines the shim's scan sees. -/
theorem map_stripCr_splitOn {lines : List Bytes} (hne : lines ≠ [])
    (h : ∀ line ∈ lines, 13 ∉ line ∧ 10 ∉ line) :
    ((([13, 10] : Bytes).intercalate lines).splitOn 10).map stripCr = lines := by
  have hkeep : ∀ line : Bytes, 13 ∉ line → stripCr line = line := fun line hcr =>
    if_neg fun hlast => hcr (List.mem_of_getLast? hlast)
  induction lines with
  | nil => exact absurd rfl hne
  | cons line rest ih =>
    obtain ⟨hcr, hlf⟩ := h line List.mem_cons_self
    cases rest with
    | nil =>
      rw [List.intercalate_singleton, splitOn_of_notMem hlf, List.map_singleton, hkeep line hcr]
    | cons next rest =>
      have hrest := ih (List.cons_ne_nil _ _) fun l hl => h l (List.mem_cons_of_mem line hl)
      have hlf' : 10 ∉ line ++ [13] := by simpa using hlf
      have hcut : ([13, 10] : Bytes).intercalate (line :: next :: rest) =
          (line ++ [13]) ++ 10 :: ([13, 10] : Bytes).intercalate (next :: rest) := by
        rw [List.intercalate_cons_cons]
        simp
      have hstrip : stripCr (line ++ [13]) = line := by simp [stripCr]
      rw [hcut, splitOn_append_cons hlf', List.map_cons, hstrip, hrest]

namespace HeaderBlock

/-- The lines of the block. -/
def lines (b : HeaderBlock) : List Bytes := b.before ++ b.field.line :: b.after

/-- The block on the wire. -/
def bytes (b : HeaderBlock) : Bytes := ([13, 10] : Bytes).intercalate b.lines

variable (b : HeaderBlock)

theorem unbroken_lines : ∀ line ∈ b.lines, 13 ∉ line ∧ 10 ∉ line := by
  intro line hline
  rw [lines, List.mem_append, List.mem_cons] at hline
  rcases hline with hline | rfl | hline
  · exact b.unbroken line (List.mem_append_left _ hline)
  · exact b.field.unbroken
  · exact b.unbroken line (List.mem_append_right _ hline)

/-- **`content_length` goes through the lines one by one**, if all bytes of the block are UTF-8. -/
theorem contentLength_bytes : contentLength b.bytes =
      if (fromUtf8 b.bytes).isSome then b.lines.findSome? readLine else none := by
  have hne : b.lines ≠ [] := by simp [lines]
  have hlines : ((b.bytes).splitOn 10).map stripCr = b.lines :=
    map_stripCr_splitOn hne b.unbroken_lines
  have hvalues : (lengthValues b.bytes).findSome? readUsize = b.lines.findSome? readLine := by
    rw [lengthValues, ← List.head?_filterMap, List.filterMap_filterMap, ← hlines,
      ← List.head?_filterMap, List.filterMap_map]
    rfl
  rw [contentLength_eq, hvalues]

end HeaderBlock

/-- **Which spellings are honoured.** Let a header block have exactly one `Content-Length` field.
`content_length` returns the number of the field exactly if the block is UTF-8 and the first line that
declares a length to it declares this number: a line in front of the field, or, if none of these
declares any, the field itself with the full name directly in front of the colon, or else a line behind
it. It returns nothing exactly if the block is not UTF-8 or no line declares a length. -/
theorem content_length_iff (b : HeaderBlock) : (contentLength b.bytes = some b.field.value ↔
        (∃ text, b.bytes = utf8 text) ∧ (First DeclaresLength b.before b.field.value ∨
            (∀ line ∈ b.before, ∀ n, ¬DeclaresLength line n) ∧
              (b.field.Direct ∨ First DeclaresLength b.after b.field.value))) ∧
      (contentLength b.bytes = none ↔ (¬∃ text, b.bytes = utf8 text) ∨
          ¬b.field.Direct ∧ ∀ line ∈ b.before ++ b.after, ∀ n, ¬DeclaresLength line n) := by
  have hutf8 : (∃ text, b.bytes = utf8 text) ↔ (fromUtf8 b.bytes).isSome := by
    rw [Option.isSome_iff_exists]
    exact exists_congr fun text => fromUtf8_eq_some_iff.symm
  have hfield : readLine b.field.line = if b.field.Direct then some b.field.value else none := by
    refine Option.ext fun n => ?_
    rw [readLine_eq_some_iff, b.field.declaresLength_line]
    split_ifs with hdirect
    · simp [hdirect, eq_comm]
    · simp [hdirect]
  rw [b.contentLength_bytes, HeaderBlock.lines, List.findSome?_append, List.findSome?_cons, hfield,
    hutf8, List.forall_mem_append]
  simp only [← findSome?_eq_some_iff_first fun _ _ => readLine_eq_some_iff,
    ← findSome?_eq_none_iff_forall fun _ _ => readLine_eq_some_iff]
  by_cases hsome : (fromUtf8 b.bytes).isSome = true
  · cases b.before.findSome? readLine with
    | none =>
      by_cases hdirect : b.field.Direct
      · simp [hsome, hdirect]
      · simp [hsome, hdirect]
    | some n => simp [hsome]
  · simp [hsome]

/-! ## Fixed header blocks -/

/-- A line that starts with another letter is no such field. -/
theorem not_isLengthField_cons {b : UInt8} (hc : toLowerAscii b ≠ 99) (hl : toLowerAscii b ≠ 108)
    (rest : Bytes) : ¬ IsLengthField (b :: rest) := by
  rintro ⟨f, hline⟩
  rw [LengthField.line] at hline
  cases hname : f.name with
  | nil =>
    rcases f.name_eq with h | h
    · rw [hname] at h
      exact absurd h (by decide)
    · rw [hname] at h
      exact absurd h (by decide)
  | cons c cs =>
    rw [hname, List.cons_append, List.cons_append, List.cons.injEq] at hline
    obtain ⟨rfl, -⟩ := hline
    have hfirst : ∀ name : Bytes, stricmp f.name name →
        some (toLowerAscii c) = (name.map toLowerAscii).head? := by
      intro name h
      have heq : f.name.map toLowerAscii = name.map toLowerAscii := by simpa [stricmp] using h
      rw [← heq, hname]
      rfl
    rcases f.name_eq with h | h
    · exact hc (Option.some.inj (hfirst _ h))
    · exact hl (Option.some.inj (hfirst _ h))

/-- A field that declares five bytes. -/
def fiveField (name before : Bytes)
    (hname : stricmp name (ascii "Content-Length") ∨ stricmp name (ascii "l"))
    (hblank : ∀ b ∈ before, isBlank b) : LengthField where
  name := name
  before := before
  blanks := [32]
  digits := ['5']
  name_eq := hname
  blank := by
    intro b hb
    rcases List.mem_append.mp hb with h | h
    · exact hblank b h
    · obtain rfl := List.mem_singleton.mp h
      rfl
  digits_ne := by decide
  decimal := by simp
  fits := by decide

/-- The value of a field holds blanks and digits only. -/
theorem not_isLengthField_plus : ¬ IsLengthField (ascii "Content-Length: +7") := by
  rintro ⟨f, hline⟩
  have hcut : ascii "Content-Length: +7" = ascii "Content-Length" ++ 58 :: ascii " +7" := rfl
  rw [LengthField.line, hcut] at hline
  obtain ⟨-, hvalue⟩ := (append_cons_inj f.colon_notMem (by decide)).mp hline
  have hplus : 43 ∈ f.blanks ++ utf8 f.digits := by
    rw [hvalue]
    decide
  rcases List.mem_append.mp hplus with h | h
  · exact absurd (f.blank 43 (List.mem_append_right _ h)) (by decide)
  · exact absurd (isDigit_of_mem_utf8 f.decimal h) (by decide)

/-- Header blocks with one `Content-Length` field, which declares five bytes: with the compact form
of the name, with a blank in front of the colon, and with a line of GBK text `content_length` returns
nothing, so that the body is taken for the next message; behind a malformed line that it reads all
the same it returns the number of that line. -/
theorem spellings_missed : (∃ b : HeaderBlock, b.bytes = ascii "l: 5" ∧ b.field.value = 5 ∧
        contentLength b.bytes = none) ∧
      (∃ b : HeaderBlock, b.bytes = ascii "Content-Length : 5" ∧ b.field.value = 5 ∧
        contentLength b.bytes = none) ∧
      (∃ b : HeaderBlock,
        b.bytes = ascii "Content-Length: 5\r\nSubject: " ++ [0xD6, 0xD0] ∧ b.field.value = 5 ∧
        contentLength b.bytes = none) ∧
      (∃ b : HeaderBlock, b.bytes = ascii "Content-Length: +7\r\nContent-Length: 5" ∧
        b.field.value = 5 ∧ contentLength b.bytes = some 7) := by
  refine ⟨⟨⟨[], fiveField (ascii "l") [] (by decide) (by simp), [], by simp, by simp⟩, ?_⟩,
    ⟨⟨[], fiveField (ascii "Content-Length") [32] (by decide) (by simp [isBlank]), [], by simp,
      by simp⟩, ?_⟩,
    ⟨⟨[], fiveField (ascii "Content-Length") [] (by decide) (by simp),
      [ascii "Subject: " ++ [0xD6, 0xD0]], ?_, by decide⟩, ?_⟩,
    ⟨⟨[ascii "Content-Length: +7"],
      fiveField (ascii "Content-Length") [] (by decide) (by simp), [], ?_, by decide⟩, ?_⟩⟩
  · decide +kernel
  · decide +kernel
  · intro line hline
    obtain rfl := List.mem_singleton.mp hline
    exact not_isLengthField_cons (by decide) (by decide) _
  · decide +kernel
  · intro line hline
    obtain rfl := List.mem_singleton.mp hline
    exact not_isLengthField_plus
  · decide +kernel

end GmvPjsip.Framer
