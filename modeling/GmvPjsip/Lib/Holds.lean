import Mathlib.Data.List.Induction
import Mathlib.Tactic.Common

/-!
# Records that are held

Code that uses a record holds it meanwhile, and a record that is removed while it is held is freed by the
last one that lets go of it. This is decided by a counter, which goes round at `size`, and a flag.

* `Counter` has the counter and the flag, and `step` is one of the three functions on it. A step returns
  `none` where it frees the record, and `run` fails where a step is made on a record that is freed.
* `Over` says of the steps on a record that it was removed and all holds are released. In a `Proper`
  sequence releases answer holds, and there is no step on a record that is over.
* `run_eq`: as long as there are fewer holds than `size` at once, the counter is their number, and the
  record is freed by the step with which it is over.
* `run_wrap`: `size` holds look like none.
-/

namespace GmvPjsip.Lib.Holds

/-- What is done to a record. -/
inductive Step
  | hold
  | release
  | remove
  deriving DecidableEq, Repr

/-! ## Sequences of steps -/

/-- The holds that are not released. -/
def depth (steps : List Step) : ℕ := steps.count .hold - steps.count .release

/-- The record was removed, and all holds are released. -/
def Over (steps : List Step) : Prop := .remove ∈ steps ∧ steps.count .hold = steps.count .release

instance (steps : List Step) : Decidable (Over steps) := inferInstanceAs (Decidable (_ ∧ _))

/-- No prefix has more releases than holds, and no step is made on a record that is over. -/
structure Proper (steps : List Step) : Prop where
  balanced : ∀ {before : List Step}, before <+: steps → before.count .release ≤ before.count .hold
  present : ∀ {before : List Step} {step : Step}, before ++ [step] <+: steps → ¬Over before

section sequences
variable {steps before : List Step} {step : Step}

theorem Proper.of_isPrefix (h : Proper steps) (hbefore : before <+: steps) : Proper before :=
  ⟨fun hp => h.balanced (hp.trans hbefore), fun hp => h.present (hp.trans hbefore)⟩

/-- A hold is one more. -/
theorem depth_hold (h : before.count .release ≤ before.count .hold) :
    depth (before ++ [.hold]) = depth before + 1 := by
  simp only [depth, List.count_append, List.count_singleton]
  simp
  omega

/-- A release is one less. -/
theorem depth_release : depth (before ++ [.release]) = depth before - 1 := by
  simp only [depth, List.count_append, List.count_singleton]
  simp
  omega

theorem depth_remove : depth (before ++ [.remove]) = depth before := by
  simp [depth, List.count_append]

/-- A record is over exactly if it was removed and nothing holds it. -/
theorem over_iff_depth (h : steps.count .release ≤ steps.count .hold) :
    Over steps ↔ .remove ∈ steps ∧ depth steps = 0 := by
  refine and_congr_right fun _ => ?_
  rw [depth]
  omega

theorem Proper.nil : Proper [] := by
  constructor
  · intro before hbefore
    rw [List.prefix_nil.mp hbefore]
    exact Nat.le_refl _
  · intro before step hbefore
    exact absurd (List.prefix_nil.mp hbefore) (List.append_ne_nil_of_right_ne_nil _ (by simp))

/-- Holds, and a removal. -/
def holdsThenRemove (n : ℕ) : List Step := List.replicate n .hold ++ [.remove]

theorem proper_holdsThenRemove (n : ℕ) : Proper (holdsThenRemove n) := by
  constructor
  · intro before hbefore
    have hnone : (holdsThenRemove n).count .release = 0 := by
      simp [holdsThenRemove, List.count_append, List.count_replicate]
    have hcount := hbefore.sublist.count_le Step.release
    omega
  · intro before step hbefore hover
    have hlength := hbefore.length_le
    simp only [holdsThenRemove, List.length_append, List.length_singleton] at hlength
    have hholds : before <+: List.replicate n .hold :=
      List.prefix_of_prefix_length_le ((List.prefix_append _ _).trans hbefore)
        (List.prefix_append _ _) (by omega)
    exact absurd (List.eq_of_mem_replicate (hholds.subset hover.1)) (by decide)

theorem count_hold_holdsThenRemove (n : ℕ) : (holdsThenRemove n).count .hold = n := by
  simp [holdsThenRemove, List.count_append]

theorem depth_holdsThenRemove (n : ℕ) : depth (holdsThenRemove n) = n := by
  simp [depth, holdsThenRemove, List.count_append, List.count_replicate]

theorem depth_le_of_isPrefix {n : ℕ} (hbefore : before <+: holdsThenRemove n) : depth before ≤ n := by
  have hcount := hbefore.sublist.count_le Step.hold
  rw [count_hold_holdsThenRemove] at hcount
  rw [depth]
  omega

end sequences

/-! ## The counter -/

/-- The counter of a record, and the flag that it was removed. -/
structure Counter where
  active : ℕ
  pending : Bool
  deriving DecidableEq, Repr

/-- The counter of a new record. -/
def Counter.fresh : Counter := ⟨0, false⟩

/-- One more hold. -/
def Counter.hold (size : ℕ) (c : Counter) : Counter := { c with active := (c.active + 1) % size }

/-- A release. `none` says that the record is freed. -/
def Counter.release (c : Counter) : Option Counter :=
  if c.active = 0 then some c
  else if c.active - 1 = 0 ∧ c.pending then none
  else some { c with active := c.active - 1 }

/-- A removal. `none` says that the record is freed. -/
def Counter.remove (c : Counter) : Option Counter :=
  if c.pending then some c
  else if c.active = 0 then none
  else some { c with pending := true }

/-- One step, on a record that is there. -/
def Counter.step (size : ℕ) (c : Counter) : Step → Option Counter
  | .hold => some (c.hold size)
  | .release => c.release
  | .remove => c.remove

/-- Steps on a record, which may be freed. A step on a freed record is `none`. -/
def run (size : ℕ) : Option Counter → List Step → Option (Option Counter)
  | record, [] => some record
  | none, _ :: _ => none
  | some c, step :: rest => run size (c.step size step) rest

section runs
variable {size : ℕ}

theorem run_append (record : Option Counter) (first second : List Step) :
    run size record (first ++ second) =
      (run size record first).bind fun record => run size record second := by
  induction first generalizing record with
  | nil => rfl
  | cons step first ih =>
    cases record with
    | none => rfl
    | some c => exact ih _

theorem run_singleton (c : Counter) (step : Step) :
    run size (some c) [step] = some (c.step size step) := rfl

/-- What a proper sequence leaves of a new record. -/
def left (steps : List Step) : Option Counter :=
  if Over steps then none else some ⟨depth steps, decide (.remove ∈ steps)⟩

/-- One more step, where the counter does not go round. -/
theorem step_left {before : List Step} {step : Step} (hproper : Proper (before ++ [step]))
    (hdepth : depth (before ++ [step]) < size) :
    Counter.step size ⟨depth before, decide (.remove ∈ before)⟩ step = left (before ++ [step]) := by
  have hbefore : before.count .release ≤ before.count .hold :=
    hproper.balanced (List.prefix_append _ _)
  have hafter := hproper.balanced (List.prefix_refl _)
  have hthere : ¬(.remove ∈ before ∧ depth before = 0) := by
    rw [← over_iff_depth hbefore]
    exact hproper.present (List.prefix_refl _)
  have hover := over_iff_depth hafter
  cases step with
  | hold =>
    rw [depth_hold hbefore] at hdepth hover
    have hnot : ¬Over (before ++ [.hold]) := fun h => absurd (hover.mp h).2 (Nat.succ_ne_zero _)
    rw [left, if_neg hnot, depth_hold hbefore]
    simp [Counter.step, Counter.hold, Nat.mod_eq_of_lt hdepth]
  | release =>
    have hpos : 0 < depth before := by
      simp only [List.count_append, List.count_singleton] at hafter
      simp at hafter
      rw [depth]
      omega
    rw [depth_release] at hover
    have hmem : Step.remove ∈ before ++ [Step.release] ↔ .remove ∈ before := by simp
    rw [hmem] at hover
    rw [left, depth_release, Counter.step, Counter.release, if_neg (Nat.ne_of_gt hpos)]
    simp only [hover, hmem, decide_eq_true_eq]
    exact if_congr and_comm rfl rfl
  | remove =>
    have hmem : Step.remove ∈ before ++ [Step.remove] := by simp
    rw [depth_remove] at hover
    rw [left, depth_remove, Counter.step, Counter.remove, decide_eq_true hmem]
    simp only [hover, hmem, true_and, decide_eq_true_eq]
    by_cases hremoved : .remove ∈ before
    · -- removed before, so it is still held
      have hheld : depth before ≠ 0 := fun h => hthere ⟨hremoved, h⟩
      rw [if_pos hremoved, if_neg hheld, decide_eq_true hremoved]
    · rw [if_neg hremoved]

/-- **Below `size` holds the record lives as it should.** It is freed by the step with which it is over;
until then its counter is the number of the holds. -/
theorem run_eq {steps : List Step} (hproper : Proper steps)
    (hdepth : ∀ before, before <+: steps → depth before < size) :
    run size (some .fresh) steps = some (left steps) := by
  induction steps using List.reverseRecOn with
  | nil => rfl
  | append_singleton before step ih =>
    have hprefix : before <+: before ++ [step] := List.prefix_append _ _
    have hthere : ¬Over before := hproper.present (List.prefix_refl _)
    have hrun := ih (hproper.of_isPrefix hprefix) fun b hb => hdepth b (hb.trans hprefix)
    rw [run_append, hrun, left, if_neg hthere, Option.bind_some, run_singleton,
      step_left hproper (hdepth _ (List.prefix_refl _))]

/-- The counter after holds alone. -/
theorem run_holds (n : ℕ) :
    run size (some .fresh) (List.replicate n .hold) = some (some ⟨n % size, false⟩) := by
  induction n with
  | zero => simp [run, Counter.fresh]
  | succ n ih =>
    rw [List.replicate_succ', run_append, ih, Option.bind_some, run_singleton, Counter.step,
      Counter.hold, Nat.mod_add_mod]

/-- **After `size` holds a removal frees the record**, which is held as often. -/
theorem run_wrap : run size (some .fresh) (holdsThenRemove size) = some none := by
  rw [holdsThenRemove, run_append, run_holds, Nat.mod_self]
  rfl

end runs

end GmvPjsip.Lib.Holds
