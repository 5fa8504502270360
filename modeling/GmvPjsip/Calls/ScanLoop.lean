import GmvPjsip.Calls.Scan
import GmvPjsip.Lib.Memory
import GmvPjsip.Lib.Search

/-!
# The scan for a header, read by read

`packetHeaderCopy` says what the scan finds in terms of lines. The code has no lines: it moves a cursor
over bytes that no NUL ends, and subtracts pointers. Here is its loop with every read of the packet
checked.

* `scanLoop` is the loop, `packetHeaderScan` the function with its checks of the arguments and the buffer
  it writes to. A read outside of the packet is `none`, as is a loop that does not end.
* `scanLoop_eq`: behind every cursor the loop finds what `packetHeaderCopy` finds in the lines there.
* `scan_exact`: the function ends and reads only inside the packet; it returns 1 exactly if the first line
  with the name has a value that fits the buffer, and then writes that value and a NUL.
-/

namespace GmvPjsip.Calls

open GmvPjsip.Auth GmvPjsip.Lib GmvPjsip.Lib.Memory

/-! ## The code -/

/-- The text of a C string, which ends in front of the first NUL. -/
structure CText where
  text : Bytes
  nulFree : 0 ∉ text

/-- What the function returns, and what is in the buffer then. -/
structure Scanned where
  found : Bool
  buffer : Bytes
  deriving DecidableEq, Repr

section code
variable (packet : Bytes)

/-- `pj_ansi_strnicmp(cursor, name, name_len) == 0`. It stops at the first difference, and at a NUL. -/
def strnicmp : ℕ → Bytes → Option Bool
  | _, [] => some true
  | cursor, d :: name => do
      let c ← load packet cursor
      if toLowerAscii c ≠ toLowerAscii d then some false
      else if c = 0 then some true
      else strnicmp (cursor + 1) name

/-- The length of a line without its carriage return. -/
def lineLen (cursor lineEnd : ℕ) : Option ℕ :=
  let len := lineEnd - cursor
  if 0 < len then do
    let c ← load packet (cursor + (len - 1))
    if c = 13 then some (len - 1) else some len
  else some len

/-- The line has the name, and a colon behind it. -/
def isNamed (name : Bytes) (cursor len : ℕ) : Option Bool :=
  if name.length < len then do
    let c ← load packet (cursor + name.length)
    if c = 58 then strnicmp packet cursor name else some false
  else some false

/-- The loop over the blanks in front of a value: `value` and `value_len` behind it. -/
def skipBlanks : ℕ → ℕ → Option (ℕ × ℕ)
  | value, 0 => some (value, 0)
  | value, len + 1 => do
      let c ← load packet value
      if isBlank c then skipBlanks (value + 1) len else some (value, len + 1)

/-- The loop over the blanks behind a value: `value_len` behind it. -/
def cutBlanks (value : ℕ) : ℕ → Option ℕ
  | 0 => some 0
  | len + 1 => do
      let c ← load packet (value + len)
      if isBlank c then cutBlanks value len else some (len + 1)

/-- Copy the value of a line and a NUL, if they fit. -/
def copyValue (name buffer : Bytes) (cursor len : ℕ) : Option Scanned := do
  let (value, valueLen) ← skipBlanks packet (cursor + name.length + 1) (len - name.length - 1)
  let valueLen ← cutBlanks packet value valueLen
  if buffer.length ≤ valueLen then some ⟨false, buffer⟩
  else do
    let text ← slice packet value valueLen
    some ⟨true, text ++ 0 :: buffer.drop (valueLen + 1)⟩

/-- The rest of a turn of the loop, once the end of the line is known: copy the value of the line if it
has the name, and go on if not. -/
def scanLine (name buffer : Bytes) (cursor lineEnd : ℕ) (next : Option Scanned) : Option Scanned := do
  let len ← lineLen packet cursor lineEnd
  let named ← isNamed packet name cursor len
  if named then copyValue packet name buffer cursor len else next

/-- The loop from a cursor, for at most `fuel` lines. -/
def scanLoop (name buffer : Bytes) : ℕ → ℕ → Option Scanned
  | 0, _ => none
  | fuel + 1, cursor =>
    let stop := packet.length
    if cursor < stop then do
      let lineFeed ← memchr packet 10 cursor (stop - cursor)
      let lineEnd := lineFeed.getD stop
      scanLine packet name buffer cursor lineEnd
        (scanLoop name buffer fuel (if lineEnd = stop then stop else lineEnd + 1))
    else some ⟨false, buffer⟩

end code

/-- The buffer `out` has `out_len` bytes; a null pointer has none.
Source: `shim_transport.inc`, `gmv_packet_header_copy` -/
def packetHeaderScan (packet : StringView) (name : Option CText) (out : Option Bytes) :
    Option Scanned :=
  match packet, name, out with
  | .bytes packet, some name, some buffer =>
    if packet.length = 0 ∨ buffer.length = 0 then some ⟨false, buffer⟩
    else scanLoop packet name.text buffer (packet.length + 1) 0
  | _, _, out => some ⟨false, out.getD []⟩

/-! ## One line -/

section line
variable {packet name text rest : Bytes} {cursor : ℕ}

theorem toLowerAscii_eq_zero {c : UInt8} (h : toLowerAscii c = 0) : c = 0 := by
  unfold toLowerAscii at h
  split_ifs at h with hletter
  · rw [UInt8.le_iff_toNat_le, UInt8.le_iff_toNat_le] at hletter
    have hsum := congrArg UInt8.toNat h
    rw [UInt8.toNat_add] at hsum
    have hlow : 65 ≤ c.toNat := hletter.1
    have hhigh : c.toNat ≤ 90 := hletter.2
    have hzero : (c.toNat + 32) % 256 = 0 := hsum
    omega
  · exact h

/-- A C string has no NUL, so the comparison runs over the whole name. -/
theorem strnicmp_of_drop (h : packet.drop cursor = text ++ rest) (hlen : text.length = name.length)
    (hname : 0 ∉ name) : strnicmp packet cursor name = some (stricmp text name) := by
  induction name generalizing cursor text with
  | nil =>
    obtain rfl := List.length_eq_zero_iff.mp hlen
    rfl
  | cons d name ih =>
    obtain ⟨c, text, rfl⟩ := List.exists_cons_of_length_eq_add_one hlen
    rw [List.mem_cons, not_or] at hname
    have hnext := ih (drop_succ_of_drop h) (Nat.succ.inj hlen) hname.2
    have hstep : stricmp (c :: text) (d :: name) =
        (decide (toLowerAscii c = toLowerAscii d) && stricmp text name) := by
      simp only [stricmp, List.map_cons, List.cons.injEq, Bool.decide_and]
    rw [strnicmp, load_of_drop h, hstep]
    show (if _ then _ else if _ then _ else _) = _
    by_cases hcase : toLowerAscii c = toLowerAscii d
    · have hc : c ≠ 0 := by
        rintro rfl
        exact hname.1 (toLowerAscii_eq_zero hcase.symm).symm
      rw [if_neg (not_not_intro hcase), if_neg hc, hnext, decide_eq_true hcase, Bool.true_and]
    · rw [if_pos hcase, decide_eq_false hcase, Bool.false_and]

/-- The carriage return is cut off the end. -/
theorem stripCr_append (line : Bytes) : ∃ cr, line = stripCr line ++ cr := by
  unfold stripCr
  split_ifs with h
  · exact ⟨[13], (List.dropLast_append_getLast? 13 h).symm⟩
  · exact ⟨[], (List.append_nil line).symm⟩

theorem lineLen_of_drop {line : Bytes} (h : packet.drop cursor = line ++ rest) :
    lineLen packet cursor (cursor + line.length) = some (stripCr line).length := by
  rw [lineLen, Nat.add_sub_cancel_left]
  rcases List.eq_nil_or_concat line with rfl | ⟨front, c, rfl⟩
  · rfl
  have hlast : packet.drop cursor = front ++ c :: rest := by
    rw [h, List.concat_eq_append, List.append_assoc, List.singleton_append]
  have hload : load packet (cursor + front.length) = some c := load_of_drop (drop_add_of_drop hlast)
  have hlength : (front.concat c).length = front.length + 1 := List.length_concat
  rw [hlength, if_pos (Nat.succ_pos _), Nat.add_sub_cancel, hload]
  show (if _ then _ else _) = _
  rw [stripCr, List.concat_eq_append, List.getLast?_concat, List.dropLast_concat]
  simp only [Option.some.injEq]
  split_ifs
  · rfl
  · rw [List.length_append, List.length_singleton]

theorem isNamed_of_drop (h : packet.drop cursor = text ++ rest) (hname : 0 ∉ name) :
    isNamed packet name cursor text.length = some (headerValue name text).isSome := by
  unfold isNamed headerValue
  by_cases hlen : name.length < text.length
  · have hcut : text = text.take name.length ++ text[name.length] :: text.drop (name.length + 1) := by
      rw [List.cons_getElem_drop_succ, List.take_append_drop]
    have hfront : (text.take name.length).length = name.length := by
      rw [List.length_take, Nat.min_eq_left hlen.le]
    have htext : packet.drop cursor = text.take name.length ++
        (text[name.length] :: (text.drop (name.length + 1) ++ rest)) := by
      rw [h]
      nth_rewrite 1 [hcut]
      rw [List.append_assoc, List.cons_append]
    have hload : load packet (cursor + name.length) = some text[name.length] := by
      have hcolon := load_of_drop (drop_add_of_drop htext)
      rwa [hfront] at hcolon
    rw [if_pos hlen, hload, List.getElem?_eq_getElem hlen]
    show (if _ then _ else _) = _
    rw [strnicmp_of_drop htext hfront hname]
    simp only [Option.some.injEq, hlen, true_and]
    by_cases hcolon : text[name.length] = 58
    · rw [if_pos hcolon]
      cases hcase : stricmp (text.take name.length) name
      · rw [if_neg (by simp)]
        rfl
      · rw [if_pos ⟨hcolon, rfl⟩]
        rfl
    · rw [if_neg hcolon, if_neg fun hboth => hcolon hboth.1]
      rfl
  · rw [if_neg hlen, if_neg fun hall => hlen hall.1]
    rfl

theorem skipBlanks_of_drop (h : packet.drop cursor = text ++ rest) :
    skipBlanks packet cursor text.length =
      some (cursor + (text.takeWhile isBlank).length, (text.dropWhile isBlank).length) := by
  induction text generalizing cursor with
  | nil => rfl
  | cons c text ih =>
    rw [List.length_cons, skipBlanks, load_of_drop h]
    show (if _ then _ else _) = _
    by_cases hc : isBlank c = true
    · rw [if_pos hc, ih (drop_succ_of_drop h), List.takeWhile_cons_of_pos hc,
        List.dropWhile_cons_of_pos hc, List.length_cons, Nat.add_assoc, Nat.add_comm 1]
    · rw [if_neg hc, List.takeWhile_cons_of_neg hc, List.dropWhile_cons_of_neg hc]
      rfl

theorem cutBlanks_of_drop (h : packet.drop cursor = text ++ rest) :
    cutBlanks packet cursor text.length = some (text.rdropWhile isBlank).length := by
  -- the loop runs from the end of the value to its front
  induction text using List.reverseRecOn generalizing rest with
  | nil => rfl
  | append_singleton text c ih =>
    rw [List.append_assoc] at h
    rw [List.length_append, List.length_singleton, cutBlanks, load_of_drop (drop_add_of_drop h)]
    show (if _ then _ else _) = _
    by_cases hc : isBlank c = true
    · rw [if_pos hc, ih h, List.rdropWhile_concat_pos _ _ _ hc]
    · rw [if_neg hc, List.rdropWhile_concat_neg _ _ _ hc, List.length_append, List.length_singleton]

/-- The buffer once the search is over. -/
def Scanned.ofValue (buffer : Bytes) : Option Bytes → Scanned
  | none => ⟨false, buffer⟩
  | some value => ⟨true, value ++ 0 :: buffer.drop (value.length + 1)⟩

/-- A value, unless it does not fit the buffer. -/
def fitting (outLen : ℕ) (value : Bytes) : Option Bytes :=
  if outLen ≤ value.length then none else some value

theorem copyValue_of_drop {spelled field : Bytes} (buffer : Bytes)
    (h : packet.drop cursor = (spelled ++ 58 :: field) ++ rest) (hcursor : cursor ≤ packet.length)
    (hspelled : spelled.length = name.length) :
    copyValue packet name buffer cursor (spelled ++ 58 :: field).length =
      some (Scanned.ofValue buffer (fitting buffer.length (trimBlanks field))) := by
  have hlen : (spelled ++ 58 :: field).length - name.length - 1 = field.length := by
    rw [List.length_append, List.length_cons, hspelled]
    omega
  have hfield : packet.drop (cursor + name.length + 1) = field ++ rest := by
    rw [List.append_assoc, List.cons_append] at h
    rw [← hspelled]
    exact drop_succ_of_drop (drop_add_of_drop h)
  have hvalue : packet.drop (cursor + name.length + 1 + (field.takeWhile isBlank).length) =
      field.dropWhile isBlank ++ rest := by
    refine drop_add_of_drop ?_
    rw [hfield, ← List.append_assoc, List.takeWhile_append_dropWhile]
  have hbound : cursor + name.length + 1 + (field.takeWhile isBlank).length ≤ packet.length := by
    have hfront : (field.takeWhile isBlank).length ≤ field.length :=
      (List.takeWhile_prefix isBlank).length_le
    have hall := congrArg List.length h
    rw [List.length_drop, List.length_append, List.length_append, List.length_cons] at hall
    omega
  obtain ⟨blanks, hblanks⟩ := List.rdropWhile_prefix isBlank (field.dropWhile isBlank)
  have htrimmed : packet.drop (cursor + name.length + 1 + (field.takeWhile isBlank).length) =
      trimBlanks field ++ (blanks ++ rest) := by
    rw [hvalue, ← List.append_assoc, trimBlanks, hblanks]
  rw [copyValue, hlen, skipBlanks_of_drop hfield]
  show (cutBlanks _ _ _).bind _ = _
  rw [cutBlanks_of_drop hvalue]
  show (if buffer.length ≤ (trimBlanks field).length then _ else _) = _
  rw [fitting]
  split_ifs
  · rfl
  · show (slice _ _ (trimBlanks field).length).bind _ = _
    rw [slice_of_drop htrimmed hbound]
    rfl

/-- **One turn of the loop.** -/
theorem scanLine_of_drop {line : Bytes} (buffer : Bytes) (next : Option Scanned)
    (h : packet.drop cursor = line ++ rest) (hcursor : cursor ≤ packet.length) (hname : 0 ∉ name) :
    scanLine packet name buffer cursor (cursor + line.length) next =
      match headerValue name (stripCr line) with
      | some value => some (Scanned.ofValue buffer (fitting buffer.length value))
      | none => next := by
  obtain ⟨cr, hcr⟩ := stripCr_append line
  have htext : packet.drop cursor = stripCr line ++ (cr ++ rest) := by
    rw [h, ← List.append_assoc, ← hcr]
  rw [scanLine, lineLen_of_drop h]
  show (isNamed _ _ _ _).bind _ = _
  rw [isNamed_of_drop htext hname]
  cases hvalue : headerValue name (stripCr line) with
  | none => rfl
  | some value =>
    obtain ⟨spelled, field, hline, hspelled, rfl⟩ := headerValue_eq_some_iff.mp hvalue
    rw [hline] at htext ⊢
    exact copyValue_of_drop buffer htext hcursor (length_of_stricmp hspelled)

end line

/-! ## The loop -/

section loop
variable {packet name line rest value : Bytes} {outLen cursor fuel : ℕ}

theorem packetHeaderCopy_of_value {lines : List Bytes} (hlines : packet.splitOn 10 = line :: lines)
    (hvalue : headerValue name (stripCr line) = some value) :
    packetHeaderCopy packet name outLen = fitting outLen value := by
  rw [packetHeaderCopy, hlines, List.findSome?_cons, hvalue]
  rfl

theorem packetHeaderCopy_of_rest (hlines : packet.splitOn 10 = line :: rest.splitOn 10)
    (hvalue : headerValue name (stripCr line) = none) :
    packetHeaderCopy packet name outLen = packetHeaderCopy rest name outLen := by
  rw [packetHeaderCopy, hlines, List.findSome?_cons, hvalue]
  rfl

theorem packetHeaderCopy_of_last (hlines : packet.splitOn 10 = [line])
    (hvalue : headerValue name (stripCr line) = none) :
    packetHeaderCopy packet name outLen = none := by
  rw [packetHeaderCopy, hlines, List.findSome?_cons, hvalue]
  rfl

/-- There is no header in no bytes. -/
theorem packetHeaderCopy_nil : packetHeaderCopy [] name outLen = none := by
  refine packetHeaderCopy_of_last (List.splitOn_nil 10) ?_
  exact if_neg fun h => Nat.not_lt_zero _ h.1

theorem scanLoop_of_feed (buffer : Bytes) (hsplit : packet.drop cursor = line ++ 10 :: rest)
    (hline : 10 ∉ line) :
    scanLoop packet name buffer (fuel + 1) cursor =
      scanLine packet name buffer cursor (cursor + line.length)
        (scanLoop packet name buffer fuel (cursor + line.length + 1)) := by
  have hlength := congrArg List.length hsplit
  rw [List.length_drop, List.length_append, List.length_cons] at hlength
  rw [scanLoop, if_pos (by omega), memchr_found hsplit hline (by omega)]
  show scanLine packet name buffer cursor (cursor + line.length) (scanLoop packet name buffer fuel
      (if cursor + line.length = packet.length then packet.length else cursor + line.length + 1)) = _
  rw [if_neg (by omega)]

theorem scanLoop_of_last (buffer : Bytes) (hcursor : cursor < packet.length)
    (hfeed : 10 ∉ packet.drop cursor) :
    scanLoop packet name buffer (fuel + 1) cursor = scanLine packet name buffer cursor packet.length
        (scanLoop packet name buffer fuel packet.length) := by
  have hmissing := memchr_missing (List.append_nil (packet.drop cursor)).symm hfeed hcursor.le
  rw [List.length_drop] at hmissing
  rw [scanLoop, if_pos hcursor, hmissing]
  show scanLine packet name buffer cursor packet.length
    (scanLoop packet name buffer fuel (if packet.length = packet.length then _ else _)) = _
  rw [if_pos rfl]

/-- **The loop finds what is in the lines behind the cursor**, if it may look at every byte there once. -/
theorem scanLoop_eq (buffer : Bytes) (hname : 0 ∉ name) (hcursor : cursor ≤ packet.length)
    (hfuel : packet.length - cursor < fuel) :
    scanLoop packet name buffer fuel cursor =
      some (Scanned.ofValue buffer (packetHeaderCopy (packet.drop cursor) name buffer.length)) := by
  induction fuel generalizing cursor with
  | zero => exact absurd hfuel (Nat.not_lt_zero _)
  | succ fuel ih =>
    rcases hcursor.eq_or_lt with rfl | hlt
    · rw [scanLoop, if_neg (lt_irrefl _), List.drop_length, packetHeaderCopy_nil]
      rfl
    by_cases hfeed : 10 ∈ packet.drop cursor
    · -- a line feed ends the line, and the next line begins behind it
      obtain ⟨line, rest, hsplit, hline⟩ := List.eq_append_cons_of_mem hfeed
      have hlines : (packet.drop cursor).splitOn 10 = line :: rest.splitOn 10 := by
        rw [hsplit, splitOn_append_cons hline]
      have hlength := congrArg List.length hsplit
      rw [List.length_drop, List.length_append, List.length_cons] at hlength
      have hrest : packet.drop (cursor + line.length + 1) = rest :=
        drop_succ_of_drop (drop_add_of_drop hsplit)
      rw [scanLoop_of_feed buffer hsplit hline, ih (by omega) (by omega), hrest,
        scanLine_of_drop buffer _ hsplit hcursor hname]
      cases hvalue : headerValue name (stripCr line) with
      | none => rw [packetHeaderCopy_of_rest hlines hvalue]
      | some value => rw [packetHeaderCopy_of_value hlines hvalue]
    · -- the last line ends with the packet
      have hlines := splitOn_of_notMem hfeed
      have hnext := ih (le_refl packet.length) (by omega)
      rw [List.drop_length, packetHeaderCopy_nil] at hnext
      have hturn := scanLine_of_drop buffer (scanLoop packet name buffer fuel packet.length)
        (List.append_nil (packet.drop cursor)).symm hcursor hname
      rw [List.length_drop, Nat.add_sub_cancel' hcursor] at hturn
      rw [scanLoop_of_last buffer hlt hfeed, hturn, hnext]
      cases hvalue : headerValue name (stripCr (packet.drop cursor)) with
      | none => rw [packetHeaderCopy_of_last hlines hvalue]
      | some value => rw [packetHeaderCopy_of_value hlines hvalue]

end loop

/-- The function and `packetHeaderCopy` agree. -/
theorem packetHeaderScan_eq (packet : Bytes) (name : CText) (buffer : Bytes) :
    packetHeaderScan (.bytes packet) (some name) (some buffer) =
      some (Scanned.ofValue buffer (packetHeaderCopy packet name.text buffer.length)) := by
  rw [packetHeaderScan]
  split_ifs with hempty
  · rcases hempty with hpacket | hbuffer
    · rw [List.length_eq_zero_iff.mp hpacket, packetHeaderCopy_nil]
      rfl
    · rw [packetHeaderCopy, hbuffer]
      split <;> rfl
  · exact scanLoop_eq buffer name.nulFree (Nat.zero_le _) (Nat.lt_succ_self _)

/-! ## What is found -/

/-- A line, without the carriage return that may end it, starts with the name in any letter case and a
colon, and has this value behind it. -/
def HasValue (name line value : Bytes) : Prop :=
  ∃ spelled field, stripCr line = spelled ++ 58 :: field ∧ stricmp spelled name ∧
    value = trimBlanks field

/-- The first line with the name has this value. -/
def FirstValue (packet name value : Bytes) : Prop :=
  ∃ before line after, packet.splitOn 10 = before ++ line :: after ∧
    (∀ earlier ∈ before, ∀ other, ¬HasValue name earlier other) ∧ HasValue name line value

theorem firstValue_iff {packet name value : Bytes} : FirstValue packet name value ↔
      (packet.splitOn 10).findSome? (fun line => headerValue name (stripCr line)) = some value := by
  have hnone : ∀ line, (∀ other, ¬HasValue name line other) ↔
      headerValue name (stripCr line) = none := by
    intro line
    rw [Option.eq_none_iff_forall_ne_some]
    exact forall_congr' fun other => not_congr headerValue_eq_some_iff.symm
  rw [List.findSome?_eq_some_iff]
  constructor
  · rintro ⟨before, line, after, hlines, hbefore, hline⟩
    exact ⟨before, line, after, hlines, headerValue_eq_some_iff.mpr hline,
      fun earlier hmem => (hnone earlier).mp (hbefore earlier hmem)⟩
  · rintro ⟨before, line, after, hlines, hline, hbefore⟩
    exact ⟨before, line, after, hlines,
      fun earlier hmem => (hnone earlier).mpr (hbefore earlier hmem), headerValue_eq_some_iff.mp hline⟩

theorem packetHeaderCopy_eq_some_iff {packet name value : Bytes} {outLen : ℕ} :
    packetHeaderCopy packet name outLen = some value ↔
      FirstValue packet name value ∧ value.length < outLen := by
  rw [firstValue_iff, packetHeaderCopy]
  rcases (packet.splitOn 10).findSome? (fun line => headerValue name (stripCr line)) with _ | first
  · simp
  · simp only [Option.some.injEq]
    split_ifs with hfits
    · refine ⟨fun h => h.elim, fun ⟨heq, hlt⟩ => ?_⟩
      rw [heq] at hfits
      omega
    · refine ⟨fun h => ?_, fun h => congrArg some h.1⟩
      obtain rfl := Option.some.inj h
      exact ⟨rfl, not_le.mp hfits⟩

/-- **The scan is exact.** It ends, with no read outside of the packet. It returns 1 exactly if the first
line with the name has a value that is shorter than the buffer, and then that value and a NUL are at the
front of the buffer; if not, the buffer is left as it was. -/
theorem scan_exact (packet : Bytes) (name : CText) (buffer : Bytes) :
    ∃ result, packetHeaderScan (.bytes packet) (some name) (some buffer) = some result ∧
      (result.found = true ↔
        ∃ value, FirstValue packet name.text value ∧ value.length < buffer.length) ∧
      (∀ value, FirstValue packet name.text value → value.length < buffer.length →
        result.buffer = value ++ 0 :: buffer.drop (value.length + 1)) ∧
      (result.found = false → result.buffer = buffer) := by
  refine ⟨_, packetHeaderScan_eq packet name buffer, ?_⟩
  simp only [← and_imp, ← packetHeaderCopy_eq_some_iff]
  cases packetHeaderCopy packet name.text buffer.length with
  | none =>
    refine ⟨by simp [Scanned.ofValue], fun value h => ?_, fun _ => rfl⟩
    cases h
  | some value =>
    refine ⟨by simp [Scanned.ofValue], fun other h => ?_, fun h => ?_⟩
    · rw [← Option.some.inj h]
      rfl
    · cases h

/-- An empty line, a value with blanks around it, and no line feed at the end. -/
example : packetHeaderScan (.bytes (ascii "a:1\r\n\nB:\t x ")) (some ⟨ascii "b", by decide⟩)
      (some [7, 7, 7, 7]) = some ⟨true, [120, 0, 7, 7]⟩ := by
  decide +kernel

end GmvPjsip.Calls
