import Mathlib.Data.List.Basic

/-!
# Reads from one object

What C code reads through a pointer into an object. A position is an index, and a read outside of the
object is `none`; so a result that is `some` says that every read was inside.

* `load` reads one element, `slice` copies several.
* `memchr`, `strchr`, `strlen` search as the C functions do, one read after the other.
* `load_of_drop`, `slice_of_drop`, `memchr_found`, `memchr_missing`, `strchr_found`, `strchr_missing`,
  `strlen_of_drop`: what they return, by what lies behind the position.
-/

namespace GmvPjsip.Lib.Memory

variable {α : Type} (object : List α)

/-- `p[i]`. -/
def load (i : ℕ) : Option α := object[i]?

/-- `memcpy` of `n` elements. -/
def slice (i n : ℕ) : Option (List α) :=
  if i + n ≤ object.length then some ((object.drop i).take n) else none

section search
variable [DecidableEq α]

/-- `memchr`: the first position with `c` among `n`. -/
def memchr (c : α) : ℕ → ℕ → Option (Option ℕ)
  | _, 0 => some none
  | i, n + 1 => do
      let d ← load object i
      if d = c then some (some i) else memchr c (i + 1) n

/-- `strchr` on what lies behind a pointer: the distance to the first `c` in front of the terminator. -/
def strchrIn (nul c : α) : List α → Option (Option ℕ)
  | [] => none
  | d :: rest =>
    if d = c then some (some 0)
    else if d = nul then some none
    else (strchrIn nul c rest).map (Option.map (· + 1))

/-- `strchr`. -/
def strchr (nul c : α) (i : ℕ) : Option (Option ℕ) :=
  (strchrIn nul c (object.drop i)).map (Option.map (i + ·))

/-- `strlen` on what lies behind a pointer. -/
def strlenIn (nul : α) : List α → Option ℕ
  | [] => none
  | d :: rest => if d = nul then some 0 else (strlenIn nul rest).map (· + 1)

/-- `strlen`. -/
def strlen (nul : α) (i : ℕ) : Option ℕ := strlenIn nul (object.drop i)

end search

variable {object} {i n : ℕ} {c d nul : α} {text rest : List α}

/-- A read of what lies at the position. -/
theorem load_of_drop (h : object.drop i = d :: rest) : load object i = some d := by
  rw [load, ← Nat.add_zero i, ← List.getElem?_drop, h]
  rfl

/-- Behind a text lies what follows it. -/
theorem drop_add_of_drop (h : object.drop i = text ++ rest) : object.drop (i + text.length) = rest := by
  rw [← List.drop_drop, h, List.drop_left]

/-- Behind one element lie the others. -/
theorem drop_succ_of_drop (h : object.drop i = d :: rest) : object.drop (i + 1) = rest := by
  rw [← List.drop_drop, h]
  rfl

/-- A copy of the text at the position. -/
theorem slice_of_drop (h : object.drop i = text ++ rest) (hi : i ≤ object.length) :
    slice object i text.length = some text := by
  have hlength := congrArg List.length h
  rw [List.length_drop, List.length_append] at hlength
  rw [slice, if_pos (by omega), h, List.take_left]

variable [DecidableEq α]

/-- `memchr` finds the first `c` in its range. -/
theorem memchr_found (h : object.drop i = text ++ c :: rest) (hc : c ∉ text) (hn : text.length < n) :
    memchr object c i n = some (some (i + text.length)) := by
  induction text generalizing i n with
  | nil =>
    obtain ⟨n, rfl⟩ := Nat.exists_eq_add_of_lt hn
    rw [List.length_nil, Nat.zero_add, memchr, load_of_drop h]
    exact if_pos rfl
  | cons d text ih =>
    rw [List.mem_cons, not_or] at hc
    obtain ⟨m, rfl⟩ : ∃ m, n = m + 1 := ⟨n - 1, by simp only [List.length_cons] at hn; omega⟩
    have hnext : object.drop (i + 1) = text ++ c :: rest := drop_succ_of_drop h
    have hrest := ih hnext hc.2 (by simpa using hn)
    rw [memchr, load_of_drop h]
    show (if d = c then _ else _) = _
    rw [if_neg (Ne.symm hc.1), hrest, List.length_cons]
    congr 2
    omega

/-- `memchr` finds nothing in a text without `c`. -/
theorem memchr_missing (h : object.drop i = text ++ rest) (hc : c ∉ text) (hi : i ≤ object.length) :
    memchr object c i text.length = some none := by
  induction text generalizing i with
  | nil => rfl
  | cons d text ih =>
    rw [List.mem_cons, not_or] at hc
    have hnext : object.drop (i + 1) = text ++ rest := drop_succ_of_drop h
    have hlength := congrArg List.length h
    rw [List.length_drop, List.cons_append, List.length_cons] at hlength
    rw [List.length_cons, memchr, load_of_drop h]
    show (if d = c then _ else _) = _
    rw [if_neg (Ne.symm hc.1)]
    exact ih hnext hc.2 (by omega)

/-- A search ends at the first `c` or terminator. -/
theorem strchrIn_append (hc : c ∉ text) (hnul : nul ∉ text) (hd : d = c ∨ d = nul) :
    strchrIn nul c (text ++ d :: rest) = some (if d = c then some text.length else none) := by
  induction text with
  | nil =>
    rw [List.nil_append, strchrIn]
    split_ifs with hdc hdn
    · rfl
    · rfl
    · exact absurd hd (by simp [hdc, hdn])
  | cons e text ih =>
    rw [List.mem_cons, not_or] at hc hnul
    rw [List.cons_append, strchrIn, if_neg (Ne.symm hc.1), if_neg (Ne.symm hnul.1), ih hc.2 hnul.2]
    split_ifs <;> rfl

/-- `strchr` finds the first `c` of a string. -/
theorem strchr_found (h : object.drop i = text ++ c :: rest) (hc : c ∉ text) (hnul : nul ∉ text) :
    strchr object nul c i = some (some (i + text.length)) := by
  rw [strchr, h, strchrIn_append hc hnul (Or.inl rfl), if_pos rfl]
  rfl

/-- `strchr` stops at the terminator. -/
theorem strchr_missing (h : object.drop i = text ++ nul :: rest) (hc : c ∉ text) (hnul : nul ∉ text)
    (hne : nul ≠ c) : strchr object nul c i = some none := by
  rw [strchr, h, strchrIn_append hc hnul (Or.inr rfl), if_neg hne]
  rfl

/-- `strlen` counts up to the terminator. -/
theorem strlen_of_drop (h : object.drop i = text ++ nul :: rest) (hnul : nul ∉ text) :
    strlen object nul i = some text.length := by
  rw [strlen, h]
  clear h
  induction text with
  | nil => exact if_pos rfl
  | cons e text ih =>
    rw [List.mem_cons, not_or] at hnul
    rw [List.cons_append, strlenIn, if_neg (Ne.symm hnul.1), ih hnul.2]
    rfl

end GmvPjsip.Lib.Memory
