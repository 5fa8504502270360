import GmvPjsip.Lib.RustStr
import GmvPjsip.Lib.Search

/-!
# Words and numbers in a text

* `splitWhitespace` and `stripPrefix` are `str::split_whitespace` and `str::strip_prefix`.
* `decimalText` and `zeroPadded` are what `format!` makes of an unsigned number with `{}` and with
  `{:0width}`; `parseUnsigned` is `str::parse` for an unsigned type.
* A word (`IsWord`) is not empty and holds no white space. Words joined by blanks are read back
  (`splitWhitespace_joinWords`).
* `lines_crlf`: lines that end in CRLF are read back. `map_trim_splitOn_trim`: white space around a text
  does not show in its pieces, where these are trimmed.
-/

namespace GmvPjsip.Lib

/-! ## Words -/

/-- `str::split_whitespace`. -/
def splitWhitespace (text : List Char) : List (List Char) :=
  (text.splitOnP isWhitespace).filter (· ≠ [])

/-- A nonempty text without white space. -/
structure IsWord (text : List Char) : Prop where
  ne_nil : text ≠ []
  plain : ∀ c ∈ text, isWhitespace c = false

instance (text : List Char) : Decidable (IsWord text) :=
  letI := List.decidableBAll (fun c => isWhitespace c = false) text
  decidable_of_iff (text ≠ [] ∧ ∀ c ∈ text, isWhitespace c = false)
    ⟨fun h => ⟨h.1, h.2⟩, fun h => ⟨h.ne_nil, h.plain⟩⟩

/-- A word may go on. -/
theorem IsWord.append {a b : List Char} (ha : IsWord a) (hb : ∀ c ∈ b, isWhitespace c = false) :
    IsWord (a ++ b) where
  ne_nil := List.append_ne_nil_of_left_ne_nil ha.ne_nil b
  plain := List.forall_mem_append.mpr ⟨ha.plain, hb⟩

/-- Words joined by one blank each. -/
def joinWords (words : List (List Char)) : List Char := [' '].intercalate words

/-- A blank between two words. -/
theorem joinWords_cons_cons (word next : List Char) (rest : List (List Char)) :
    joinWords (word :: next :: rest) = word ++ ' ' :: joinWords (next :: rest) := by
  rw [joinWords, List.intercalate_cons_cons, List.append_assoc]
  rfl

/-- No blank around one word. -/
theorem joinWords_singleton (word : List Char) : joinWords [word] = word := List.intercalate_singleton

variable {word : List Char} {words : List (List Char)} {c : Char} {n : ℕ}

/-- A word is split off at the blank behind it. -/
theorem splitWhitespace_append (h : IsWord word) (rest : List Char) :
    splitWhitespace (word ++ ' ' :: rest) = word :: splitWhitespace rest := by
  rw [splitWhitespace, List.splitOnP_append_cons_of_forall_mem h.plain ' ' rfl,
    List.filter_cons_of_pos (by simpa using h.ne_nil)]
  rfl

/-- A word is not split. -/
theorem splitWhitespace_word (h : IsWord word) : splitWhitespace word = [word] := by
  rw [splitWhitespace, List.splitOnP_eq_singleton h.plain,
    List.filter_cons_of_pos (by simpa using h.ne_nil)]
  rfl

/-- **Joined words are read back.** -/
theorem splitWhitespace_joinWords (h : ∀ word ∈ words, IsWord word) :
    splitWhitespace (joinWords words) = words := by
  induction words with
  | nil => rfl
  | cons word rest ih =>
    obtain ⟨hword, hrest⟩ := List.forall_mem_cons.mp h
    cases rest with
    | nil => rw [joinWords_singleton, splitWhitespace_word hword]
    | cons next rest => rw [joinWords_cons_cons, splitWhitespace_append hword, ih hrest]

/-! ## Lines of words -/

/-- White space other than the blank does not come up in joined words. -/
theorem notMem_joinWords (h : ∀ word ∈ words, IsWord word) (hc : isWhitespace c)
    (hblank : c ≠ ' ') : c ∉ joinWords words := by
  refine notMem_intercalate (by simpa using hblank) fun word hword hmem => ?_
  rw [(h word hword).plain c hmem] at hc
  cases hc

/-- A text that neither begins nor ends with white space is trimmed. -/
theorem trim_of_ends {text : List Char} (hfront : ∀ c ∈ text.head?, isWhitespace c = false)
    (hback : ∀ c ∈ text.getLast?, isWhitespace c = false) : trim text = text := by
  have hdrop : text.dropWhile isWhitespace = text := by
    rw [List.dropWhile_eq_self_iff]
    intro hpos
    simp [hfront _ (List.head?_eq_getElem? ▸ List.getElem?_eq_getElem hpos)]
  have hrdrop : text.rdropWhile isWhitespace = text := by
    rw [List.rdropWhile_eq_self_iff]
    intro hne
    simp [hback _ (List.getLast?_eq_some_getLast hne)]
  rw [trim, hdrop, hrdrop]

/-- The line begins as its first word. -/
theorem head?_joinWords (hne : word ≠ []) (rest : List (List Char)) :
    (joinWords (word :: rest)).head? = word.head? := by
  cases rest with
  | nil => rw [joinWords_singleton]
  | cons next rest => rw [joinWords_cons_cons, List.head?_append_of_ne_nil _ hne]

/-- The line is not empty. -/
theorem joinWords_ne_nil (hne : word ≠ []) (rest : List (List Char)) :
    joinWords (word :: rest) ≠ [] := by
  intro hnil
  have hhead := head?_joinWords hne rest
  rw [hnil] at hhead
  exact hne (List.head?_eq_none_iff.mp hhead.symm)

/-- It does not end with a blank. -/
theorem getLast?_joinWords (h : ∀ word ∈ words, IsWord word) :
    ∀ c ∈ (joinWords words).getLast?, isWhitespace c = false := by
  induction words with
  | nil => simp [joinWords]
  | cons word rest ih =>
    obtain ⟨hword, hrest⟩ := List.forall_mem_cons.mp h
    cases rest with
    | nil =>
      rw [joinWords_singleton]
      exact fun c hc => hword.plain c (List.mem_of_getLast? hc)
    | cons next rest =>
      have hne := joinWords_ne_nil (hrest next List.mem_cons_self).ne_nil rest
      rw [joinWords_cons_cons, List.getLast?_append_of_ne_nil _ (List.cons_ne_nil _ _),
        List.getLast?_cons_of_ne_nil hne]
      exact ih hrest

/-- Lines, each with CRLF behind it. -/
def crlf (texts : List (List Char)) : List Char := texts.flatMap (· ++ ['\r', '\n'])

/-- **Lines that end in CRLF are read back.** -/
theorem lines_crlf {texts : List (List Char)} (h : ∀ text ∈ texts, '\n' ∉ text) :
    lines (crlf texts) = texts := by
  induction texts with
  | nil => rfl
  | cons text rest ih =>
    obtain ⟨htext, hrest⟩ := List.forall_mem_cons.mp h
    have hcut : crlf (text :: rest) = (text ++ ['\r']) ++ '\n' :: crlf rest := by simp [crlf]
    have hlf : '\n' ∉ text ++ ['\r'] := by simpa using htext
    rw [hcut, lines, splitInclusive_append hlf, List.map_cons, ← lines, ih hrest]
    simp [stripLineEnd]

/-! ## Pieces between separators -/

/-- White space. -/
abbrev Blanks := { ws : List Char // ∀ c ∈ ws, isWhitespace c }

def noBlanks : Blanks := ⟨[], fun _ hc => absurd hc List.not_mem_nil⟩

/-- Blanks are whitespace only. -/
theorem notMem_blanks (hc : isWhitespace c = false) (ws : Blanks) : c ∉ ws.val := by
  intro hmem
  rw [ws.property c hmem] at hc
  cases hc

section pieces
variable {sep : Char} (hsep : isWhitespace sep = false) (text : List Char)
include hsep

/-- Blanks at the end do not matter, -/
theorem map_trim_splitOn_rdropWhile :
    ((text.rdropWhile isWhitespace).splitOn sep).map trim = (text.splitOn sep).map trim := by
  -- by the length: the text is cut at its first separator
  induction hn : text.length using Nat.strong_induction_on generalizing text with
  | _ n ih =>
    by_cases hmem : sep ∈ text
    · obtain ⟨before, after, rfl, hbefore⟩ := List.eq_append_cons_of_mem hmem
      have hshort : after.length < n := by
        rw [← hn, List.length_append, List.length_cons]
        omega
      rw [rdropWhile_append_cons hsep, splitOn_append_cons hbefore, splitOn_append_cons hbefore,
        List.map_cons, List.map_cons, ih after.length hshort after rfl]
    · have hdrop : sep ∉ text.rdropWhile isWhitespace := fun h =>
        hmem ((List.rdropWhile_prefix _ _).subset h)
      rw [splitOn_of_notMem hmem, splitOn_of_notMem hdrop, List.map_singleton, List.map_singleton,
        trim_rdropWhile]

/-- nor do those in front. -/
theorem map_trim_splitOn_dropWhile :
    ((text.dropWhile isWhitespace).splitOn sep).map trim = (text.splitOn sep).map trim := by
  have hws : ∀ c ∈ text.takeWhile isWhitespace, isWhitespace c := fun c => List.mem_takeWhile_imp
  have hcut : text.splitOn sep = ((text.dropWhile isWhitespace).splitOn sep).modifyHead
      (text.takeWhile isWhitespace ++ ·) := by
    rw [← splitOn_append_of_notMem (notMem_blanks hsep ⟨_, hws⟩), List.takeWhile_append_dropWhile]
  rw [hcut]
  cases (text.dropWhile isWhitespace).splitOn sep with
  | nil => rfl
  | cons first rest =>
    have htrim : trim (text.takeWhile isWhitespace ++ (first ++ [])) = trim first :=
      trim_append hws (List.forall_mem_nil _)
    rw [List.append_nil] at htrim
    rw [List.modifyHead_cons, List.map_cons, List.map_cons, htrim]

/-- Where each piece is trimmed, the text itself need not be. -/
theorem map_trim_splitOn_trim : ((trim text).splitOn sep).map trim = (text.splitOn sep).map trim := by
  rw [trim, map_trim_splitOn_rdropWhile hsep, map_trim_splitOn_dropWhile hsep]

end pieces

/-! ## Fixed texts in front -/

/-- `str::strip_prefix`. -/
def stripPrefix : List Char → List Char → Option (List Char)
  | [], text => some text
  | _ :: _, [] => none
  | p :: ps, c :: cs => if p = c then stripPrefix ps cs else none

/-! ## Numbers -/

/-- `format!("{n}")` of an unsigned number. -/
def decimalText (n : ℕ) : List Char := Nat.toDigits 10 n

/-- `format!("{n:0width}")` of an unsigned number. -/
def zeroPadded (width n : ℕ) : List Char :=
  List.replicate (width - (decimalText n).length) '0' ++ decimalText n

/-- `str::parse` for the unsigned type with `size` values: a number that does not fit is an error, as
is what `str::parse::<usize>` does not accept. -/
def parseUnsigned (size : ℕ) (text : List Char) : Option ℕ := (parseUsize text).filter (· < size)

/-- A decimal text has digits only. -/
theorem isDigit_of_mem_decimalText (hc : c ∈ decimalText n) : c.isDigit :=
  Nat.isDigit_of_mem_toDigits (by decide) (by decide) hc

/-- Digits make a word. -/
theorem isWord_of_isDigit {digits : List Char} (hne : digits ≠ []) (hd : ∀ c ∈ digits, c.isDigit) :
    IsWord digits :=
  ⟨hne, fun c hc => isWhitespace_of_isDigit (hd c hc)⟩

/-- So a decimal text is a word. -/
theorem isWord_decimalText (n : ℕ) : IsWord (decimalText n) :=
  isWord_of_isDigit Nat.toDigits_ne_nil fun _ => isDigit_of_mem_decimalText

/-- It is read back as the number. -/
theorem decimalValue_decimalText (n : ℕ) : decimalValue 0 (decimalText n) = n := by
  have hfold : decimalValue 0 (decimalText n) = Nat.ofDigitChars 10 (Nat.toDigits 10 n) 0 := by
    simp only [decimalValue, decimalText, digitValue, Nat.ofDigitChars, Nat.mul_comm]
  rw [hfold, Nat.ofDigitChars_ten_toDigits]

/-- A number that fits is parsed from its decimal text. -/
theorem parseUnsigned_decimalText {size : ℕ} (hn : n < size) (hsize : size ≤ usizeSize) :
    parseUnsigned size (decimalText n) = some n := by
  have hvalue := decimalValue_decimalText n
  have hfit : decimalValue 0 (decimalText n) < usizeSize := by
    rw [hvalue]
    exact hn.trans_le hsize
  have hparse : parseUsize (decimalText n) = some n := by
    rw [parseUsize_eq_some (isWord_decimalText n).ne_nil (fun _ => isDigit_of_mem_decimalText) hfit,
      hvalue]
  rw [parseUnsigned, hparse, Option.filter_some, if_pos (decide_eq_true hn)]

/-- Zeros in front do not change the value. -/
theorem decimalValue_zeroPadded (width n : ℕ) : decimalValue 0 (zeroPadded width n) = n := by
  have hzeros : ∀ k, decimalValue 0 (List.replicate k '0') = 0 := by
    intro k
    induction k with
    | zero => rfl
    | succ k ih => exact ih
  calc decimalValue 0 (zeroPadded width n)
      = decimalValue (decimalValue 0 (List.replicate (width - (decimalText n).length) '0'))
          (decimalText n) := List.foldl_append
    _ = n := by rw [hzeros, decimalValue_decimalText]

/-- Padding adds digits only. -/
theorem isDigit_of_mem_zeroPadded {width : ℕ} (hc : c ∈ zeroPadded width n) : c.isDigit := by
  rcases List.mem_append.mp hc with hzero | hdigit
  · rw [List.eq_of_mem_replicate hzero]
    rfl
  · exact isDigit_of_mem_decimalText hdigit

/-- A number below a power of ten is padded to exactly that many digits. -/
theorem length_zeroPadded {width : ℕ} (hpos : 0 < width) (hn : n < 10 ^ width) :
    (zeroPadded width n).length = width := by
  have hle : (decimalText n).length ≤ width := (Nat.length_toDigits_le_iff (by decide) hpos).mpr hn
  rw [zeroPadded, List.length_append, List.length_replicate]
  omega

/-- A padded text is a word. -/
theorem isWord_zeroPadded (width n : ℕ) : IsWord (zeroPadded width n) :=
  isWord_of_isDigit (List.append_ne_nil_of_right_ne_nil _ Nat.toDigits_ne_nil)
    fun _ => isDigit_of_mem_zeroPadded

end GmvPjsip.Lib
