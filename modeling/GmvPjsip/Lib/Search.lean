import Mathlib.Data.List.Infix
import Mathlib.Tactic.Common

/-!
# The first occurrence of a pattern

`indexOfSlice pat l` is the position of the first window of `l` that equals `pat`. The framing
proofs need two facts about it: an occurrence that has been found stays the first one whatever
is appended (`indexOfSlice_append`), and an occurrence with no earlier one is the one that is
found (`indexOfSlice_eq_some_iff`).

A separator that does not occur in front of it marks its place: a list has one such cut
(`append_cons_inj`), and it is where `List.splitOn` cuts first (`splitOn_append_cons`). One that does not
occur behind it marks its place as well (`append_cons_inj_last`).

`First P l b` says what the search for the first element that `P` accepts finds.
-/

namespace GmvPjsip.Lib

variable {α : Type*} [DecidableEq α]

/-- The position of the first window of the list that equals `pat`. The pattern is assumed not to
be empty: there is no window to look at in an empty list. -/
def indexOfSlice (pat : List α) : List α → Option ℕ
  | [] => none
  | x :: xs => if pat <+: x :: xs then some 0 else (indexOfSlice pat xs).map (· + 1)

variable {pat l : List α} {i : ℕ}

/-- A window that was found is an occurrence of the pattern. -/
theorem indexOfSlice_spec (h : indexOfSlice pat l = some i) : pat <+: l.drop i := by
  induction l generalizing i with
  | nil => cases h
  | cons x xs ih =>
    rw [indexOfSlice] at h
    split_ifs at h with hp
    · cases h
      exact hp
    · obtain ⟨j, hj, rfl⟩ := Option.map_eq_some_iff.mp h
      exact ih hj

/-- No earlier window is an occurrence. -/
theorem indexOfSlice_first (h : indexOfSlice pat l = some i) {j : ℕ} (hj : j < i) :
    ¬ pat <+: l.drop j := by
  induction l generalizing i j with
  | nil => cases h
  | cons x xs ih =>
    rw [indexOfSlice] at h
    split_ifs at h with hp
    · cases h
      omega
    · obtain ⟨k, hk, rfl⟩ := Option.map_eq_some_iff.mp h
      cases j with
      | zero => exact hp
      | succ j => exact ih hk (by omega)

/-- An occurrence lies within the list. -/
theorem indexOfSlice_add_length_le (h : indexOfSlice pat l = some i) :
    i + pat.length ≤ l.length ∨ pat = [] := by
  have hlen := (indexOfSlice_spec h).length_le
  rw [List.length_drop] at hlen
  by_cases hp : pat = []
  · exact Or.inr hp
  · have hpos : 0 < pat.length := List.length_pos_iff.mpr hp
    left
    omega

/-- The first occurrence is the one that is found. -/
theorem indexOfSlice_eq_some (hpat : pat ≠ []) (hi : pat <+: l.drop i)
    (hfirst : ∀ j < i, ¬ pat <+: l.drop j) : indexOfSlice pat l = some i := by
  induction l generalizing i with
  | nil =>
    rw [List.drop_nil] at hi
    exact absurd (List.prefix_nil.mp hi) hpat
  | cons x xs ih =>
    rw [indexOfSlice]
    cases i with
    | zero =>
      rw [List.drop_zero] at hi
      rw [if_pos hi]
    | succ i =>
      have h0 : ¬ pat <+: x :: xs := hfirst 0 (Nat.succ_pos i)
      rw [if_neg h0, ih hi fun j hj => hfirst (j + 1) (by omega)]
      rfl

/-- `indexOfSlice` finds exactly the first occurrence. -/
theorem indexOfSlice_eq_some_iff (hpat : pat ≠ []) :
    indexOfSlice pat l = some i ↔ pat <+: l.drop i ∧ ∀ j < i, ¬ pat <+: l.drop j :=
  ⟨fun h => ⟨indexOfSlice_spec h, fun _ hj => indexOfSlice_first h hj⟩,
    fun ⟨hi, hfirst⟩ => indexOfSlice_eq_some hpat hi hfirst⟩

omit [DecidableEq α] in
/-- A list that starts with a pattern-sized piece of another one contains the pattern exactly when
that one does. -/
theorem prefix_drop_append_iff {m : List α} {j : ℕ} (h : j + pat.length ≤ l.length) :
    pat <+: (l ++ m).drop j ↔ pat <+: l.drop j := by
  rw [List.drop_append_of_le_length (by omega)]
  refine ⟨fun hp => ?_, fun hp => hp.trans (List.prefix_append _ _)⟩
  exact List.prefix_of_prefix_length_le hp (List.prefix_append _ _) (by rw [List.length_drop]; omega)

/-- **Prefix stability.** An occurrence that has been found stays the first one, whatever is
appended. -/
theorem indexOfSlice_append (hpat : pat ≠ []) (h : indexOfSlice pat l = some i) (m : List α) :
    indexOfSlice pat (l ++ m) = some i := by
  have hlen : i + pat.length ≤ l.length := by
    rcases indexOfSlice_add_length_le h with hle | hnil
    · exact hle
    · exact absurd hnil hpat
  rw [indexOfSlice_eq_some_iff hpat]
  refine ⟨(prefix_drop_append_iff hlen).mpr (indexOfSlice_spec h), fun j hj hp => ?_⟩
  exact indexOfSlice_first h hj ((prefix_drop_append_iff (by omega)).mp hp)

/-- Cutting the list anywhere behind the first occurrence keeps it. -/
theorem indexOfSlice_take (hpat : pat ≠ []) (h : indexOfSlice pat l = some i) {k : ℕ}
    (hk : i + pat.length ≤ k) : indexOfSlice pat (l.take k) = some i := by
  rw [indexOfSlice_eq_some_iff hpat]
  have hsplit : l.take k ++ l.drop k = l := List.take_append_drop k l
  have hlen : i + pat.length ≤ (l.take k).length := by
    rcases indexOfSlice_add_length_le h with hle | hnil
    · rw [List.length_take]
      omega
    · exact absurd hnil hpat
  refine ⟨?_, fun j hj hp => ?_⟩
  · rw [← prefix_drop_append_iff (m := l.drop k) hlen, hsplit]
    exact indexOfSlice_spec h
  · rw [← prefix_drop_append_iff (m := l.drop k) (by omega), hsplit] at hp
    exact indexOfSlice_first h hj hp

/-- A list is split at its first separator in one way. -/
theorem append_cons_inj {β : Type*} {a : β} {x y z w : List β} (hx : a ∉ x) (hy : a ∉ y) :
    x ++ a :: z = y ++ a :: w ↔ x = y ∧ z = w := by
  refine ⟨fun h => ?_, fun ⟨hxy, hzw⟩ => by rw [hxy, hzw]⟩
  induction x generalizing y with
  | nil =>
    cases y with
    | nil => exact ⟨rfl, (List.cons.inj h).2⟩
    | cons b y => exact absurd ((List.cons.inj h).1 ▸ List.mem_cons_self) hy
  | cons b x ih =>
    cases y with
    | nil => exact absurd ((List.cons.inj h).1 ▸ List.mem_cons_self) hx
    | cons c y =>
      obtain ⟨rfl, htail⟩ := List.cons.inj h
      obtain ⟨rfl, hzw⟩ := ih (fun hmem => hx (List.mem_cons_of_mem _ hmem))
        (fun hmem => hy (List.mem_cons_of_mem _ hmem)) htail
      exact ⟨rfl, hzw⟩

/-- A list is split at its last separator in one way. -/
theorem append_cons_inj_last {β : Type*} {a : β} {x y z w : List β} (hz : a ∉ z) (hw : a ∉ w) :
    x ++ a :: z = y ++ a :: w ↔ x = y ∧ z = w := by
  have hreverse : ∀ front back : List β,
      (front ++ a :: back).reverse = back.reverse ++ a :: front.reverse := by
    intro front back
    rw [List.reverse_append, List.reverse_cons, List.append_assoc, List.singleton_append]
  rw [← List.reverse_inj, hreverse, hreverse, append_cons_inj (by rwa [List.mem_reverse])
    (by rwa [List.mem_reverse]), List.reverse_inj, List.reverse_inj, and_comm]

/-! ## Splitting -/

theorem splitOn_append_of_notMem {a : α} {x : List α} (hx : a ∉ x) (l : List α) :
    (x ++ l).splitOn a = (l.splitOn a).modifyHead (x ++ ·) := by
  induction x with
  | nil =>
    show l.splitOn a = (l.splitOn a).modifyHead id
    rw [List.modifyHead_id]
    rfl
  | cons d ds ih =>
    rw [List.mem_cons, not_or] at hx
    rw [List.cons_append, List.splitOn, List.splitOnP_cons_eq_if_modifyHead,
      if_neg (by simpa using Ne.symm hx.1)]
    show ((ds ++ l).splitOn a).modifyHead _ = _
    rw [ih hx.2, List.modifyHead_modifyHead]
    rfl

theorem splitOn_of_notMem {a : α} {x : List α} (h : a ∉ x) : x.splitOn a = [x] := by
  simpa using splitOn_append_of_notMem h []

/-- A piece without the separator is split off whole. -/
theorem splitOn_append_cons {a : α} {x : List α} (h : a ∉ x) (l : List α) :
    (x ++ a :: l).splitOn a = x :: l.splitOn a := by
  rw [splitOn_append_of_notMem h, List.splitOn, List.splitOnP_cons_eq_if_modifyHead, if_pos (by simp)]
  simp [List.splitOn]

/-- A piece between separators holds none. -/
theorem notMem_of_mem_splitOn {a : α} {l piece : List α} (h : piece ∈ l.splitOn a) : a ∉ piece := by
  induction l generalizing piece with
  | nil =>
    obtain rfl : piece = [] := by simpa using h
    exact List.not_mem_nil
  | cons c cs ih =>
    have hcons : (c :: cs).splitOn a =
        if c == a then [] :: cs.splitOn a else (cs.splitOn a).modifyHead (c :: ·) :=
      List.splitOnP_cons_eq_if_modifyHead ..
    rw [hcons] at h
    split_ifs at h with hc
    · rcases List.mem_cons.mp h with rfl | hrest
      · exact List.not_mem_nil
      · exact ih hrest
    · obtain ⟨first, rest, hsplit⟩ := List.exists_cons_of_ne_nil (List.splitOn_ne_nil a cs)
      rw [hsplit, List.modifyHead_cons] at h
      rcases List.mem_cons.mp h with rfl | hrest
      · have hfirst : a ∉ first := ih (hsplit ▸ List.mem_cons_self)
        rw [List.mem_cons, not_or]
        exact ⟨fun heq => hc (by simp [heq]), hfirst⟩
      · exact ih (hsplit ▸ List.mem_cons_of_mem first hrest)

/-- The first element that stands for anything stands for `b`. -/
def First {α β : Type*} (P : α → β → Prop) (l : List α) (b : β) : Prop :=
  ∃ front a back, l = front ++ a :: back ∧ P a b ∧ ∀ x ∈ front, ∀ c, ¬P x c

/-- What a search finds, by what its function accepts. -/
theorem findSome?_eq_some_iff_first {α β : Type*} {f : α → Option β} {P : α → β → Prop}
    (h : ∀ a b, f a = some b ↔ P a b) {l : List α} {b : β} :
    l.findSome? f = some b ↔ First P l b := by
  rw [List.findSome?_eq_some_iff]
  refine exists_congr fun front => exists_congr fun a => exists_congr fun back => ?_
  simp only [h, Option.eq_none_iff_forall_ne_some, ne_eq]

/-- When a search finds nothing. -/
theorem findSome?_eq_none_iff_forall {α β : Type*} {f : α → Option β} {P : α → β → Prop}
    (h : ∀ a b, f a = some b ↔ P a b) {l : List α} :
    l.findSome? f = none ↔ ∀ a ∈ l, ∀ b, ¬P a b := by
  rw [List.findSome?_eq_none_iff]
  simp only [Option.eq_none_iff_forall_ne_some, ne_eq, h]

end GmvPjsip.Lib
