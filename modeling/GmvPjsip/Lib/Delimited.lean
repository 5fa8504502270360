import GmvPjsip.Lib.Search

/-!
# Delimited patterns

A pattern that begins with one mark and ends with another, and holds neither in between, such as a tag
in angle brackets. Its occurrences do not straddle marks: cut in front of an opening mark, or behind a
closing one, a text has the occurrences of its two parts.

* `Delimited.infix_append_cons`, `Delimited.infix_concat_append`: the two cuts. `Delimited.infix_paste`:
  both at once.
* `Delimited.indexOfSlice_append`: an occurrence behind a text without one is the first.
* `exists_first_infix`: what contains a pattern contains a first one.
-/

namespace GmvPjsip.Lib

variable {α : Type*} {a b : α} {pat x y z : List α}

/-- The pattern begins with `a`, ends with `b`, and holds neither in between. -/
structure Delimited (a b : α) (pat : List α) : Prop where
  ne : a ≠ b
  eq : ∃ body, pat = a :: (body ++ [b]) ∧ a ∉ body ∧ b ∉ body

namespace Delimited

theorem ne_nil (h : Delimited a b pat) : pat ≠ [] := by
  obtain ⟨body, rfl, -, -⟩ := h.eq
  exact List.cons_ne_nil _ _

theorem reverse (h : Delimited a b pat) : Delimited b a pat.reverse := by
  obtain ⟨body, rfl, ha, hb⟩ := h.eq
  exact ⟨h.ne.symm, body.reverse, by simp, by simpa using hb, by simpa using ha⟩

/-- An occurrence that begins in front of an opening mark ends in front of it. -/
theorem prefix_of_append_cons (h : Delimited a b pat) (hx : x ≠ []) (hpat : pat <+: x ++ a :: z) :
    pat <+: x := by
  obtain ⟨body, rfl, ha, -⟩ := h.eq
  obtain ⟨rest, hrest⟩ := hpat
  rcases List.append_eq_append_iff.mp hrest with ⟨w, hw, -⟩ | ⟨w, hw, hz⟩
  · exact ⟨w, hw.symm⟩
  · -- the mark would be inside the pattern
    cases w with
    | nil => exact ⟨[], by rw [hw]; simp⟩
    | cons c w =>
      obtain rfl : a = c := (List.cons.inj hz).1
      obtain ⟨d, x, rfl⟩ := List.exists_cons_of_ne_nil hx
      have htail : body ++ [b] = x ++ a :: w := (List.cons.inj hw).2
      have hmem : a ∈ body ++ [b] := htail ▸ List.mem_append_right x List.mem_cons_self
      rcases List.mem_append.mp hmem with hbody | hlast
      · exact absurd hbody ha
      · exact absurd (List.mem_singleton.mp hlast) h.ne

/-- A text may be cut in front of an opening mark. -/
theorem infix_append_cons (h : Delimited a b pat) :
    pat <:+: x ++ a :: z ↔ pat <:+: x ∨ pat <:+: a :: z := by
  constructor
  · rintro ⟨s, t, hst⟩
    rw [List.append_assoc] at hst
    rcases List.append_eq_append_iff.mp hst with ⟨w, hw, hpat⟩ | ⟨w, -, hz⟩
    · by_cases hnil : w = []
      · refine Or.inr ⟨[], t, ?_⟩
        rw [hnil, List.nil_append] at hpat
        exact hpat
      · have hpre : pat <+: w := h.prefix_of_append_cons hnil ⟨t, hpat⟩
        rw [hw]
        exact Or.inl (hpre.isInfix.trans (List.suffix_append s w).isInfix)
    · exact Or.inr ⟨w, t, by rw [hz, List.append_assoc]⟩
  · rintro (hx | hz)
    · exact hx.trans (List.prefix_append x _).isInfix
    · exact hz.trans (List.suffix_append x _).isInfix

/-- A text may be cut behind a closing mark. -/
theorem infix_concat_append (h : Delimited a b pat) :
    pat <:+: (x ++ [b]) ++ y ↔ pat <:+: x ++ [b] ∨ pat <:+: y := by
  have hlast : b :: x.reverse = (x ++ [b]).reverse := by simp
  have hrev : y.reverse ++ b :: x.reverse = ((x ++ [b]) ++ y).reverse := by simp
  calc pat <:+: (x ++ [b]) ++ y ↔ pat.reverse <:+: y.reverse ++ b :: x.reverse := by
        rw [hrev, List.reverse_infix]
    _ ↔ pat.reverse <:+: y.reverse ∨ pat.reverse <:+: b :: x.reverse := h.reverse.infix_append_cons
    _ ↔ pat <:+: x ++ [b] ∨ pat <:+: y := by
        rw [or_comm, List.reverse_infix, hlast, List.reverse_infix]

theorem infix_append_of_head (h : Delimited a b pat) (hy : y.head? = some a) :
    pat <:+: x ++ y ↔ pat <:+: x ∨ pat <:+: y := by
  obtain ⟨z, rfl⟩ := List.head?_eq_some_iff.mp hy
  exact h.infix_append_cons

theorem infix_append_of_getLast (h : Delimited a b pat) (hx : x.getLast? = some b) :
    pat <:+: x ++ y ↔ pat <:+: x ∨ pat <:+: y := by
  obtain ⟨w, rfl⟩ := List.getLast?_eq_some_iff.mp hx
  exact h.infix_concat_append

/-- A text that is pasted in behind a closing mark and in front of an opening one. -/
theorem infix_paste (h : Delimited a b pat) (hx : x.getLast? = some b) (hz : z.head? = some a) :
    pat <:+: x ++ (y ++ z) ↔ pat <:+: x ∨ pat <:+: y ∨ pat <:+: z := by
  rw [h.infix_append_of_getLast hx, h.infix_append_of_head hz]

variable [DecidableEq α]

/-- Behind a text without an occurrence, an occurrence is the first. -/
theorem indexOfSlice_append (h : Delimited a b pat) (hx : ¬ pat <:+: x) (z : List α) :
    indexOfSlice pat (x ++ (pat ++ z)) = some x.length := by
  refine indexOfSlice_eq_some h.ne_nil ?_ fun j hj hpre => hx ?_
  · rw [List.drop_left]
    exact List.prefix_append pat z
  · obtain ⟨body, hpat, -, -⟩ := h.eq
    have hdrop : x.drop j ≠ [] := by simpa using hj
    rw [List.drop_append_of_le_length (Nat.le_of_lt hj), hpat, List.cons_append, ← hpat] at hpre
    exact (h.prefix_of_append_cons hdrop hpre).isInfix.trans (List.drop_suffix j x).isInfix

end Delimited

/-- What contains a pattern contains a first one. -/
theorem exists_first_infix (hne : pat ≠ []) (h : pat <:+: x) :
    ∃ y z, x = y ++ (pat ++ z) ∧ ¬ pat <:+: y := by
  induction hn : x.length using Nat.strong_induction_on generalizing x with
  | _ n ih =>
    obtain ⟨s, t, rfl⟩ := h
    by_cases hs : pat <:+: s
    · have hshort : s.length < n := by
        have hpos : 0 < pat.length := List.length_pos_iff.mpr hne
        rw [← hn, List.length_append, List.length_append]
        omega
      obtain ⟨y, z, hyz, hy⟩ := ih s.length hshort hs rfl
      exact ⟨y, z ++ (pat ++ t), by rw [hyz]; simp, hy⟩
    · exact ⟨s, t, by simp, hs⟩

end GmvPjsip.Lib
