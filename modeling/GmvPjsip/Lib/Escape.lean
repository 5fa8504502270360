import Mathlib.Data.List.Basic

/-!
# Escaping with a mark

A text is escaped by writing some of its elements as two: a mark, and a letter that stands for the
element. The mark is one of them, or what is escaped could not be told from what is not.

* `EscapeTable` says which elements are escaped, and how a letter is read back.
* `unescape_escape`: a text can be read back; hence `escape_injective`.
* `notMem_escape`: an element that is escaped does not occur, unless it is the mark or a letter.
-/

namespace GmvPjsip.Lib

/-- Which elements are escaped: `letter` has the letter for each of them, and `meaning` reads it back. -/
structure EscapeTable (α : Type*) where
  mark : α
  letter : α → Option α
  meaning : α → α
  meaning_letter : ∀ {a l : α}, letter a = some l → meaning l = a
  letter_mark : letter mark ≠ none

namespace EscapeTable

variable {α : Type*} (t : EscapeTable α)

/-- What is written for one element. -/
def code (a : α) : List α :=
  match t.letter a with
  | some l => [t.mark, l]
  | none => [a]

/-- The escaped text. -/
def escape (text : List α) : List α := text.flatMap t.code

/-- Read an escaped text. -/
def unescape [DecidableEq α] : List α → List α
  | [] => []
  | [a] => [a]
  | a :: b :: rest => if a = t.mark then t.meaning b :: unescape rest else a :: unescape (b :: rest)

theorem escape_cons (a : α) (text : List α) : t.escape (a :: text) = t.code a ++ t.escape text :=
  List.flatMap_cons

/-- An element that is not the mark stands for itself. -/
theorem unescape_cons [DecidableEq α] {a : α} (ha : a ≠ t.mark) (rest : List α) :
    t.unescape (a :: rest) = a :: t.unescape rest := by
  cases rest with
  | nil => rfl
  | cons b rest => rw [unescape, if_neg ha]

/-- **An escaped text is read back.** -/
theorem unescape_escape [DecidableEq α] (text : List α) : t.unescape (t.escape text) = text := by
  induction text with
  | nil => rfl
  | cons a text ih =>
    rw [escape_cons, code]
    cases hletter : t.letter a with
    | some l =>
      show t.unescape (t.mark :: l :: t.escape text) = a :: text
      rw [unescape, if_pos rfl, t.meaning_letter hletter, ih]
    | none =>
      have ha : a ≠ t.mark := by
        rintro rfl
        exact t.letter_mark hletter
      show t.unescape (a :: t.escape text) = a :: text
      rw [t.unescape_cons ha, ih]

theorem escape_injective : Function.Injective t.escape := by
  classical
  intro a b h
  rw [← t.unescape_escape a, ← t.unescape_escape b, h]

/-- What is escaped does not occur in the escaped text. -/
theorem notMem_escape {a : α} (hescaped : t.letter a ≠ none) (hmark : a ≠ t.mark)
    (hletter : ∀ b, t.letter b ≠ some a) (text : List α) : a ∉ t.escape text := by
  intro hmem
  obtain ⟨b, -, hb⟩ := List.mem_flatMap.mp hmem
  rw [code] at hb
  cases hcase : t.letter b with
  | some l =>
    rw [hcase] at hb
    rcases List.mem_cons.mp hb with rfl | hl
    · exact hmark rfl
    · rw [List.mem_singleton.mp hl] at hletter
      exact hletter b hcase
  | none =>
    rw [hcase] at hb
    rw [List.mem_singleton.mp hb] at hescaped
    exact hescaped hcase

end EscapeTable

end GmvPjsip.Lib
