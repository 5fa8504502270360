import Mathlib.Data.List.Basic

/-!
# Runs that read a clock

A run is a list of operations, each with the readings of the clock it takes, in order.

* `Runs`: the clock does not go back. `Reached`: it has come to a time.
* `Runs.reached`: where the clock does not go back, the operations before another one have at most
  come to its readings.
* `exists_reached`: there is always a time that the clock has not passed.
-/

namespace GmvPjsip.Lib.Clock

variable {α : Type*} (readings : α → List ℕ)

/-- The clock does not go back. -/
def Runs (ops : List α) : Prop := (ops.flatMap readings).Pairwise (· ≤ ·)

/-- The clock has at most come to `now`. -/
def Reached (ops : List α) (now : ℕ) : Prop := ∀ reading ∈ ops.flatMap readings, reading ≤ now

instance (ops : List α) : Decidable (Runs readings ops) :=
  inferInstanceAs (Decidable (List.Pairwise _ _))

instance (ops : List α) (now : ℕ) : Decidable (Reached readings ops now) :=
  inferInstanceAs (Decidable (∀ _ ∈ _, _))

variable {readings} {before after : List α} {op : α} {now reading : ℕ}

/-- So it is in the beginning of a run. -/
theorem Runs.of_append (h : Runs readings (before ++ after)) : Runs readings before := by
  rw [Runs, List.flatMap_append, List.pairwise_append] at h
  exact h.1

/-- Before an operation the clock has at most come to its readings. -/
theorem Runs.reached (h : Runs readings (before ++ op :: after)) (hreading : reading ∈ readings op) :
    Reached readings before reading := by
  rw [Runs, List.flatMap_append, List.pairwise_append] at h
  intro earlier hearlier
  refine h.2.2 earlier hearlier reading ?_
  rw [List.flatMap_cons]
  exact List.mem_append_left _ hreading

/-- Earlier it had not come further. -/
theorem Reached.of_append (h : Reached readings (before ++ after) now) :
    Reached readings before now := by
  intro reading hreading
  refine h reading ?_
  rw [List.flatMap_append]
  exact List.mem_append_left _ hreading

/-- A reading of one of the operations. -/
theorem Reached.of_mem (h : Reached readings before now) (hop : op ∈ before)
    (hreading : reading ∈ readings op) : reading ≤ now :=
  h reading (List.mem_flatMap.mpr ⟨op, hop, hreading⟩)

/-- Some time has not been passed. -/
theorem exists_reached (ops : List α) : ∃ now, Reached readings ops now := by
  unfold Reached
  induction ops.flatMap readings with
  | nil => exact ⟨0, fun _ hreading => absurd hreading List.not_mem_nil⟩
  | cons first rest ih =>
    obtain ⟨bound, hbound⟩ := ih
    refine ⟨max first bound, fun reading hreading => ?_⟩
    rcases List.mem_cons.mp hreading with rfl | hrest
    · exact Nat.le_max_left _ _
    · exact Nat.le_trans (hbound reading hrest) (Nat.le_max_right _ _)

end GmvPjsip.Lib.Clock
