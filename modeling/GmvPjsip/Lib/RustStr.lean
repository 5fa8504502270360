import Mathlib.Algebra.Ring.Nat
import Mathlib.Data.List.Basic
import Mathlib.Data.List.DropRight
import Mathlib.Tactic.Common

/-!
# The parts of Rust's `str` the program uses

A `&str` is modelled by its list of characters. Each definition carries the name of the standard
library function it stands for and follows its documentation:

* `fromUtf8` is `std::str::from_utf8`, by Lean's own UTF-8 decoder; `fromUtf8_utf8` says that the
  encoding of a text is read back as that text. `fromUtf8Lossy` is `String::from_utf8_lossy`.
* `lines`, `splitOnce`, `find`, `replace`, `eqIgnoreAsciiCase`, `trim` and `trimMatches` are
  `str::lines`, `str::split_once`, `str::find`, `str::replace`, `str::eq_ignore_ascii_case`,
  `str::trim` and `str::trim_matches`;
  `lines_intercalate` says when `str::lines` undoes `[str]::join`.
* `parseUsize` is `str::parse::<usize>` on a 64-bit target, with the overflow check at every
  digit.
-/

namespace GmvPjsip.Lib

/-! ## UTF-8 -/

/-- The UTF-8 encoding of a text. -/
def utf8 (text : List Char) : List UInt8 := text.flatMap String.utf8EncodeChar

/-- `std::str::from_utf8`: the text a byte string encodes, if it is valid UTF-8. -/
def fromUtf8 (bytes : List UInt8) : Option (List Char) :=
  bytes.toByteArray.utf8Decode?.map Array.toList

/-- The encoding of a text is valid and is read back as that text. -/
theorem fromUtf8_utf8 (text : List Char) : fromUtf8 (utf8 text) = some text := by
  have h : (utf8 text).toByteArray = text.utf8Encode := rfl
  simp [fromUtf8, h]

/-- `String::from_utf8_lossy`. What it makes of an invalid byte string is the parameter. -/
def fromUtf8Lossy (replaced : List UInt8 → List Char) (bytes : List UInt8) : List Char :=
  (fromUtf8 bytes).getD (replaced bytes)

@[simp]
theorem fromUtf8Lossy_utf8 (replaced : List UInt8 → List Char) (text : List Char) :
    fromUtf8Lossy replaced (utf8 text) = text := by
  rw [fromUtf8Lossy, fromUtf8_utf8, Option.getD_some]

@[simp]
theorem utf8_nil : utf8 [] = [] := rfl

@[simp]
theorem utf8_append (a b : List Char) : utf8 (a ++ b) = utf8 a ++ utf8 b := List.flatMap_append

variable {text line before : List Char} {c sep : Char} {n : ℕ}

@[simp]
theorem utf8_eq_nil : utf8 text = [] ↔ text = [] := by
  constructor
  · intro h
    have hread := fromUtf8_utf8 text
    rw [h, ← utf8_nil, fromUtf8_utf8] at hread
    exact (Option.some.inj hread).symm
  · rintro rfl
    rfl

/-- A character of a text puts its bytes into the encoding. -/
theorem mem_utf8 {b : UInt8} (hc : c ∈ text) (hb : b ∈ String.utf8EncodeChar c) : b ∈ utf8 text :=
  List.mem_flatMap.mpr ⟨c, hc, hb⟩

/-- What is neither in the separator nor in a text is not in what they are joined to. -/
theorem notMem_intercalate {α : Type} {a : α} {sep : List α} {texts : List (List α)}
    (hsep : a ∉ sep) (h : ∀ text ∈ texts, a ∉ text) : a ∉ sep.intercalate texts := by
  induction texts with
  | nil => exact List.not_mem_nil
  | cons text rest ih =>
    have hrest := ih fun t ht => h t (List.mem_cons_of_mem text ht)
    cases rest with
    | nil =>
      rw [List.intercalate_singleton]
      exact h text List.mem_cons_self
    | cons next rest =>
      rw [List.intercalate_cons_cons, List.mem_append, List.mem_append, not_or, not_or]
      exact ⟨⟨h text List.mem_cons_self, hsep⟩, hrest⟩

/-- Encoding goes through `[str]::join`. -/
theorem utf8_intercalate (sep : List Char) (texts : List (List Char)) :
    utf8 (sep.intercalate texts) = (utf8 sep).intercalate (texts.map utf8) := by
  induction texts with
  | nil => rfl
  | cons text rest ih =>
    cases rest with
    | nil => simp
    | cons next rest =>
      rw [List.intercalate_cons_cons, utf8_append, utf8_append, ih]
      simp only [List.map_cons, List.intercalate_cons_cons]

/-! ## Lines -/

/-- `str::split_inclusive('\n')`: the pieces of a text, each with the line feed that ends it. -/
def splitInclusive : List Char → List (List Char)
  | [] => []
  | c :: cs =>
    if c = '\n' then [c] :: splitInclusive cs
    else match splitInclusive cs with
      | [] => [[c]]
      | l :: ls => (c :: l) :: ls

/-- Strip a line's terminator: a line feed and then one carriage return before it. A piece without
a line feed, which can only be the last one, is kept as it is. -/
def stripLineEnd (line : List Char) : List Char :=
  if line.getLast? = some '\n' then
    if line.dropLast.getLast? = some '\r' then line.dropLast.dropLast else line.dropLast
  else line

/-- `str::lines`. -/
def lines (text : List Char) : List (List Char) := (splitInclusive text).map stripLineEnd

/-- A line is split off with its line feed. -/
theorem splitInclusive_append (h : '\n' ∉ line) (rest : List Char) :
    splitInclusive (line ++ '\n' :: rest) = (line ++ ['\n']) :: splitInclusive rest := by
  induction line with
  | nil => simp [splitInclusive]
  | cons c cs ih =>
    rw [List.mem_cons, not_or] at h
    rw [List.cons_append, splitInclusive, if_neg (Ne.symm h.1), ih h.2]
    rfl

/-- The last line needs no line feed. -/
theorem splitInclusive_line (hne : line ≠ []) (h : '\n' ∉ line) : splitInclusive line = [line] := by
  induction line with
  | nil => exact absurd rfl hne
  | cons c cs ih =>
    rw [List.mem_cons, not_or] at h
    rw [splitInclusive, if_neg (Ne.symm h.1)]
    cases cs with
    | nil => rfl
    | cons d ds => rw [ih (List.cons_ne_nil d ds) h.2]

theorem stripLineEnd_append (h : '\r' ∉ line) : stripLineEnd (line ++ ['\n']) = line := by
  have hcr : line.getLast? ≠ some '\r' := fun hlast => h (List.mem_of_getLast? hlast)
  simp [stripLineEnd, hcr]

theorem stripLineEnd_line (h : '\n' ∉ line) : stripLineEnd line = line :=
  if_neg fun hlast => h (List.mem_of_getLast? hlast)

/-- **Joined lines are read back.** Texts that are not empty and hold neither a line feed nor a
carriage return are the lines of what `[str]::join("\n")` makes of them. -/
theorem lines_intercalate {texts : List (List Char)}
    (h : ∀ text ∈ texts, text ≠ [] ∧ '\n' ∉ text ∧ '\r' ∉ text) :
    lines (['\n'].intercalate texts) = texts := by
  induction texts with
  | nil => rfl
  | cons text rest ih =>
    obtain ⟨hne, hlf, hcr⟩ := h text List.mem_cons_self
    cases rest with
    | nil =>
      rw [List.intercalate_singleton, lines, splitInclusive_line hne hlf, List.map_singleton,
        stripLineEnd_line hlf]
    | cons next rest =>
      have hrest := ih fun t ht => h t (List.mem_cons_of_mem text ht)
      rw [List.intercalate_cons_cons, List.append_assoc, List.singleton_append, lines,
        splitInclusive_append hlf, List.map_cons, stripLineEnd_append hcr]
      exact congrArg _ hrest

/-! ## Splitting and comparing -/

/-- `str::split_once`: the text before and after the first occurrence of a character. -/
def splitOnce (sep : Char) : List Char → Option (List Char × List Char)
  | [] => none
  | c :: cs => if c = sep then some ([], cs) else (splitOnce sep cs).map fun p => (c :: p.1, p.2)

/-- The split happens at the first separator. -/
theorem splitOnce_append (h : sep ∉ before)
    (after : List Char) : splitOnce sep (before ++ sep :: after) = some (before, after) := by
  induction before with
  | nil => simp [splitOnce]
  | cons c cs ih =>
    rw [List.mem_cons, not_or] at h
    rw [List.cons_append, splitOnce, if_neg (Ne.symm h.1), ih h.2]
    rfl

theorem splitOnce_eq_none (h : sep ∉ text) : splitOnce sep text = none := by
  induction text with
  | nil => rfl
  | cons c cs ih =>
    rw [List.mem_cons, not_or] at h
    rw [splitOnce, if_neg (Ne.symm h.1), ih h.2]
    rfl

/-- What `split_once` returns is the text cut at a separator. -/
theorem eq_append_of_splitOnce {after : List Char}
    (h : splitOnce sep text = some (before, after)) : text = before ++ sep :: after := by
  induction text generalizing before with
  | nil => cases h
  | cons c cs ih =>
    rw [splitOnce] at h
    split_ifs at h with hc
    · cases h
      rw [hc]
      rfl
    · obtain ⟨p, hp, heq⟩ := Option.map_eq_some_iff.mp h
      cases heq
      rw [List.cons_append, ← ih hp]

/-- Behind the separator a text may grow. -/
theorem splitOnce_concat (hc : c ≠ sep) (text : List Char) :
    splitOnce sep (text ++ [c]) = (splitOnce sep text).map fun p => (p.1, p.2 ++ [c]) := by
  induction text with
  | nil => simp [splitOnce, hc]
  | cons d ds ih =>
    rw [List.cons_append, splitOnce, splitOnce]
    split_ifs with hd
    · rfl
    · rw [ih, Option.map_map, Option.map_map]
      rfl

/-- `str::find` of a character, by the number of characters in front of it. -/
def find (c : Char) (text : List Char) : Option ℕ := text.findIdx? (· = c)

theorem find_append_of_notMem (h : c ∉ before) (after : List Char) :
    find c (before ++ after) = (find c after).map (· + before.length) := by
  have hnone : before.findIdx? (· = c) = none := by
    rw [List.findIdx?_eq_none_iff]
    exact fun d hd => decide_eq_false fun heq => h (heq ▸ hd)
  rw [find, List.findIdx?_append, hnone, Option.none_or]
  rfl

theorem find_append (h : c ∉ before) (after : List Char) :
    find c (before ++ c :: after) = some before.length := by
  rw [find_append_of_notMem h, find, List.findIdx?_cons, if_pos (decide_eq_true rfl), Option.map_some,
    Nat.zero_add]

/-- `str::replace` of a character. -/
def replace (c : Char) (text' text : List Char) : List Char :=
  text.flatMap fun d => if d = c then text' else [d]

/-- Of a text that was written piece by piece, each piece is changed. -/
theorem replace_flatMap (c : Char) (text' text : List Char) (code : Char → List Char) :
    replace c text' (text.flatMap code) = text.flatMap fun d => replace c text' (code d) :=
  List.flatMap_assoc

/-- `str::eq_ignore_ascii_case`: equality up to the case of ASCII letters. -/
def eqIgnoreAsciiCase (a b : List Char) : Bool := a.map Char.toLower = b.map Char.toLower

/-! ## Trimming -/

/-- `char::is_whitespace`: the Unicode property `White_Space`. -/
def isWhitespace (c : Char) : Bool :=
  (0x09 ≤ c.toNat && c.toNat ≤ 0x0D) || c.toNat = 0x20 || c.toNat = 0x85 || c.toNat = 0xA0 ||
    c.toNat = 0x1680 || (0x2000 ≤ c.toNat && c.toNat ≤ 0x200A) || c.toNat = 0x2028 ||
    c.toNat = 0x2029 || c.toNat = 0x202F || c.toNat = 0x205F || c.toNat = 0x3000

/-- `str::trim`. -/
def trim (text : List Char) : List Char := (text.dropWhile isWhitespace).rdropWhile isWhitespace

/-- Trimming does not depend on the white space around a text. -/
theorem trim_append {ws ws' : List Char} (hws : ∀ c ∈ ws, isWhitespace c)
    (hws' : ∀ c ∈ ws', isWhitespace c) : trim (ws ++ (text ++ ws')) = trim text := by
  have hback : ∀ t : List Char, (t ++ ws').rdropWhile isWhitespace = t.rdropWhile isWhitespace := by
    intro t
    rw [List.rdropWhile, List.rdropWhile, List.reverse_append, List.dropWhile_append_of_pos]
    exact fun c hc => hws' c (List.mem_reverse.mp hc)
  rw [trim, trim, List.dropWhile_append_of_pos hws, List.dropWhile_append]
  split_ifs with hempty
  · rw [List.isEmpty_iff.mp hempty, List.dropWhile_eq_nil_iff.mpr hws']
  · exact hback _

theorem isInfix_trim (text : List Char) : trim text <:+: text :=
  (List.rdropWhile_prefix _ _).isInfix.trans (List.dropWhile_suffix _).isInfix

theorem mem_of_mem_trim (h : c ∈ trim text) : c ∈ text :=
  (isInfix_trim text).subset h

/-- Trimming keeps what is no white space. -/
theorem mem_trim (hc : isWhitespace c = false) (h : c ∈ text) : c ∈ trim text := by
  have hkept : ∀ {l : List Char}, c ∈ l → c ∈ l.dropWhile isWhitespace := by
    intro l hl
    rw [← List.takeWhile_append_dropWhile (p := isWhitespace) (l := l), List.mem_append] at hl
    refine hl.resolve_left fun htake => ?_
    rw [List.mem_takeWhile_imp htake] at hc
    cases hc
  rw [trim, List.rdropWhile, List.mem_reverse]
  exact hkept (List.mem_reverse.mpr (hkept h))

theorem trim_eq_self (h : ∀ c ∈ text, isWhitespace c = false) : trim text = text := by
  have hfront : text.dropWhile isWhitespace = text := by
    rw [List.dropWhile_eq_self_iff]
    intro hpos
    simp [h _ (List.getElem_mem hpos)]
  have hback : text.rdropWhile isWhitespace = text := by
    rw [List.rdropWhile_eq_self_iff]
    intro hne
    simp [h _ (List.getLast_mem hne)]
  rw [trim, hfront, hback]

/-- A character that is no white space ends the trimming at the back. -/
theorem rdropWhile_append_cons (hc : isWhitespace c = false) (before after : List Char) :
    (before ++ c :: after).rdropWhile isWhitespace = before ++ c :: after.rdropWhile isWhitespace := by
  have hfront : (c :: before.reverse).dropWhile isWhitespace = c :: before.reverse :=
    List.dropWhile_cons_of_neg (by simp [hc])
  have hrev : (before ++ c :: after).reverse = after.reverse ++ c :: before.reverse := by simp
  rw [List.rdropWhile, List.rdropWhile, hrev, List.dropWhile_append]
  split_ifs with hempty
  · rw [hfront, List.isEmpty_iff.mp hempty]
    simp
  · simp

theorem trim_cons (hc : isWhitespace c = false) (text : List Char) :
    trim (c :: text) = c :: text.rdropWhile isWhitespace := by
  rw [trim, List.dropWhile_cons_of_neg (by simp [hc])]
  exact rdropWhile_append_cons hc [] text

/-- Between two characters that are no white space nothing is trimmed. -/
theorem trim_append_cons (hbefore : ∀ d ∈ before.head?, isWhitespace d = false)
    (hc : isWhitespace c = false)
    (after : List Char) :
    trim (before ++ c :: after) = before ++ c :: after.rdropWhile isWhitespace := by
  cases before with
  | nil => exact trim_cons hc after
  | cons d ds =>
    rw [List.cons_append, trim_cons (hbefore d rfl), rdropWhile_append_cons hc]
    rfl

theorem trim_between {d : Char} (hc : isWhitespace c = false) (hd : isWhitespace d = false)
    (before middle after : List Char) :
    trim (before ++ c :: (middle ++ d :: after)) =
      before.dropWhile isWhitespace ++ c :: (middle ++ d :: after.rdropWhile isWhitespace) := by
  have hfront : (before ++ c :: (middle ++ d :: after)).dropWhile isWhitespace =
      (before.dropWhile isWhitespace ++ c :: middle) ++ d :: after := by
    rw [List.dropWhile_append]
    split_ifs with hempty
    · rw [List.dropWhile_cons_of_neg (by simp [hc]), List.isEmpty_iff.mp hempty]
      rfl
    · simp
  rw [trim, hfront, rdropWhile_append_cons hd]
  simp

theorem trim_rdropWhile (text : List Char) : trim (text.rdropWhile isWhitespace) = trim text := by
  have hback : ∀ c ∈ text.rtakeWhile isWhitespace, isWhitespace c := by
    intro c hc
    exact List.mem_takeWhile_imp (List.mem_reverse.mp hc)
  calc trim (text.rdropWhile isWhitespace)
      = trim ([] ++ (text.rdropWhile isWhitespace ++ text.rtakeWhile isWhitespace)) :=
        (trim_append (List.forall_mem_nil _) hback).symm
    _ = trim text := by rw [List.nil_append, List.rdropWhile_append_rtakeWhile]

theorem trim_dropWhile (text : List Char) : trim (text.dropWhile isWhitespace) = trim text := by
  rw [trim, trim, List.dropWhile_idempotent]

/-- Trimming a second time changes nothing. -/
theorem trim_trim (text : List Char) : trim (trim text) = trim text := by
  rw [show trim text = (text.dropWhile isWhitespace).rdropWhile isWhitespace from rfl, trim_rdropWhile,
    trim_dropWhile]
  rfl

/-- `str::trim_matches` of a character. -/
def trimMatches (c : Char) (text : List Char) : List Char :=
  (text.dropWhile (· = c)).rdropWhile (· = c)

theorem mem_of_mem_trimMatches {d : Char} (h : d ∈ trimMatches c text) : d ∈ text :=
  (List.dropWhile_suffix _).subset ((List.rdropWhile_prefix _ _).subset h)

theorem rdropWhile_of_notMem (h : c ∉ text) : text.rdropWhile (· = c) = text := by
  rw [List.rdropWhile_eq_self_iff]
  intro hne
  have hlast : text.getLast hne ≠ c := fun heq => h (heq ▸ List.getLast_mem hne)
  simpa using hlast

theorem trimMatches_eq_self (h : c ∉ text) : trimMatches c text = text := by
  have hfront : text.dropWhile (· = c) = text := by
    rw [List.dropWhile_eq_self_iff]
    intro hpos
    have hfirst : text[0] ≠ c := fun heq => h (heq ▸ List.getElem_mem hpos)
    simpa using hfirst
  rw [trimMatches, hfront, rdropWhile_of_notMem h]

/-- One character on either side of a text without it is taken off. -/
theorem trimMatches_surround (h : c ∉ text) : trimMatches c (c :: (text ++ [c])) = text := by
  rw [trimMatches, List.dropWhile_cons_of_pos (by simp)]
  cases text with
  | nil => simp
  | cons d ds =>
    have hd : ¬ d = c := fun heq => h (heq ▸ List.mem_cons_self)
    rw [List.cons_append, List.dropWhile_cons_of_neg (by simpa using hd), ← List.cons_append,
      List.rdropWhile_concat_pos _ _ _ (by simp), rdropWhile_of_notMem h]

/-! ## Numbers -/

/-- The number of values of a 64-bit `usize`. -/
def usizeSize : ℕ := 2 ^ 64

/-- The value of a decimal digit. -/
def digitValue (c : Char) : ℕ := c.toNat - '0'.toNat

/-- The digits of an unsigned number, from the value read so far. As `from_str_radix` does, it
gives up at the first character that is no digit and at the first overflow. -/
def parseDigits : ℕ → List Char → Option ℕ
  | acc, [] => some acc
  | acc, c :: cs =>
    if c.isDigit then
      if acc * 10 + digitValue c < usizeSize then parseDigits (acc * 10 + digitValue c) cs
      else none
    else none

/-- `str::parse::<usize>`: an optional plus sign and at least one decimal digit. -/
def parseUsize : List Char → Option ℕ
  | [] => none
  | '+' :: cs => if cs = [] then none else parseDigits 0 cs
  | cs => parseDigits 0 cs

/-- The value of a string of decimal digits, read behind `acc`. -/
def decimalValue (acc : ℕ) (digits : List Char) : ℕ :=
  digits.foldl (fun v c => v * 10 + digitValue c) acc

/-- Reading further digits never makes the value smaller. -/
theorem le_decimalValue (acc : ℕ) (digits : List Char) : acc ≤ decimalValue acc digits := by
  induction digits generalizing acc with
  | nil => exact le_refl acc
  | cons c cs ih =>
    calc acc ≤ acc * 10 + digitValue c := by omega
      _ ≤ decimalValue (acc * 10 + digitValue c) cs := ih _

/-- Digits are read to their decimal value, if that fits, and nothing else is read. -/
theorem parseDigits_eq_some_iff {acc : ℕ} (hacc : acc < usizeSize) : parseDigits acc text = some n ↔
      (∀ c ∈ text, c.isDigit) ∧ decimalValue acc text = n ∧ n < usizeSize := by
  induction text generalizing acc with
  | nil =>
    constructor
    · rintro ⟨⟩
      exact ⟨fun _ hc => absurd hc List.not_mem_nil, rfl, hacc⟩
    · rintro ⟨-, rfl, -⟩
      rfl
  | cons c cs ih =>
    have hvalue : decimalValue acc (c :: cs) = decimalValue (acc * 10 + digitValue c) cs := rfl
    rw [parseDigits, hvalue, List.forall_mem_cons]
    by_cases hdigit : c.isDigit = true
    · rw [if_pos hdigit, and_iff_right hdigit]
      by_cases hstep : acc * 10 + digitValue c < usizeSize
      · rw [if_pos hstep, ih hstep]
      · -- a number that is too large stays so
        rw [if_neg hstep]
        refine iff_of_false (Option.some_ne_none n).symm ?_
        rintro ⟨-, rfl, hfit⟩
        exact hstep (lt_of_le_of_lt (le_decimalValue _ cs) hfit)
    · rw [if_neg hdigit]
      exact iff_of_false (Option.some_ne_none n).symm fun h => hdigit h.1.1

/-- A digit is no white space. -/
theorem isWhitespace_of_isDigit (h : c.isDigit) : isWhitespace c = false := by
  have hrange : 48 ≤ c.toNat ∧ c.toNat ≤ 57 := by
    simpa [Char.isDigit, UInt32.le_iff_toNat_le] using h
  simp only [isWhitespace, Bool.or_eq_false_iff, Bool.and_eq_false_iff, decide_eq_false_iff_not]
  omega

/-- A text spells a number: an optional plus sign, and digits whose value fits a `usize`. -/
def SpellsUsize (text : List Char) (n : ℕ) : Prop :=
  ∃ sign digits, text = sign ++ digits ∧ (sign = [] ∨ sign = ['+']) ∧ digits ≠ [] ∧
    (∀ c ∈ digits, c.isDigit) ∧ decimalValue 0 digits = n ∧ n < usizeSize

/-- **A text is parsed exactly to the number it spells.** -/
theorem parseUsize_eq_some_iff : parseUsize text = some n ↔ SpellsUsize text n := by
  have hpos : 0 < usizeSize := by decide
  constructor
  · intro h
    unfold parseUsize at h
    split at h
    · cases h
    · split_ifs at h with hnone
      obtain ⟨hdigits, hvalue, hfit⟩ := (parseDigits_eq_some_iff hpos).mp h
      exact ⟨['+'], _, rfl, Or.inr rfl, hnone, hdigits, hvalue, hfit⟩
    · obtain ⟨hdigits, hvalue, hfit⟩ := (parseDigits_eq_some_iff hpos).mp h
      exact ⟨[], text, rfl, Or.inl rfl, by assumption, hdigits, hvalue, hfit⟩
  · rintro ⟨sign, digits, rfl, hsign, hne, hdigits, hvalue⟩
    have hparse := (parseDigits_eq_some_iff hpos).mpr ⟨hdigits, hvalue⟩
    rcases hsign with rfl | rfl
    · obtain ⟨c, cs, rfl⟩ := List.exists_cons_of_ne_nil hne
      have hplus : c ≠ '+' := by
        rintro rfl
        exact absurd (hdigits '+' List.mem_cons_self) (by decide)
      rw [List.nil_append, parseUsize, hparse]
      · exact hne
      · rintro cs' heq
        exact hplus (List.cons.inj heq).1
    · show (if digits = [] then none else parseDigits 0 digits) = some n
      rw [if_neg hne, hparse]

/-- A nonempty string of digits whose value fits is parsed to that value. -/
theorem parseUsize_eq_some {digits : List Char} (hne : digits ≠ []) (hd : ∀ c ∈ digits, c.isDigit)
    (hfit : decimalValue 0 digits < usizeSize) :
    parseUsize digits = some (decimalValue 0 digits) :=
  parseUsize_eq_some_iff.mpr ⟨[], digits, rfl, Or.inl rfl, hne, hd, rfl, hfit⟩

/-- What spells a number has no white space. -/
theorem SpellsUsize.isWhitespace (h : SpellsUsize text n) : ∀ c ∈ text, isWhitespace c = false := by
  obtain ⟨sign, digits, rfl, hsign, -, hdigits, -⟩ := h
  intro c hc
  rcases List.mem_append.mp hc with hc | hc
  · rcases hsign with rfl | rfl
    · exact absurd hc List.not_mem_nil
    · obtain rfl := List.mem_singleton.mp hc
      decide
  · exact isWhitespace_of_isDigit (hdigits c hc)

/-- A trimmed text is parsed exactly to the number that stands in it between white space. -/
theorem parseUsize_trim_iff :
    parseUsize (trim text) = some n ↔ ∃ front number back, text = front ++ (number ++ back) ∧
      (∀ c ∈ front ++ back, isWhitespace c) ∧ SpellsUsize number n := by
  constructor
  · intro h
    refine ⟨text.takeWhile Lib.isWhitespace, trim text,
      (text.dropWhile Lib.isWhitespace).rtakeWhile Lib.isWhitespace, ?_, ?_,
      parseUsize_eq_some_iff.mp h⟩
    · rw [trim, List.rdropWhile_append_rtakeWhile, List.takeWhile_append_dropWhile]
    · intro c hc
      rcases List.mem_append.mp hc with hfront | hback
      · exact List.mem_takeWhile_imp hfront
      · exact List.mem_rtakeWhile_imp hback
  · rintro ⟨front, number, back, rfl, hwhite, hspells⟩
    rw [trim_append (fun c hc => hwhite c (List.mem_append_left _ hc))
      fun c hc => hwhite c (List.mem_append_right _ hc), trim_eq_self hspells.isWhitespace]
    exact parseUsize_eq_some_iff.mpr hspells

end GmvPjsip.Lib
