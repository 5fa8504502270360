import Mathlib.Data.List.Basic
import Mathlib.Logic.Function.Iterate

/-!
# Retry loops on an atomic cell

Any number of threads update one atomic cell by the loop of a weak compare-exchange: load the cell,
compute the next value from what was loaded, try to exchange, and start over from the value the failed
exchange returned.

All accesses are relaxed. The cell has a modification order, which a successful exchange extends from
its latest value; a load, and the load of an exchange that fails, may see any value of the order. A
weak exchange may also fail on the latest value. That a thread never reads backwards is not used.

* `Access` is one access of a thread, `step` its effect, with `none` for one that cannot happen, and
  `run` what a schedule makes of a cell.
* `iterated_run`: whatever the schedule, the cell goes through the iterates of the update, and each is
  returned to one call.
-/

namespace GmvPjsip.Lib.AtomicCell

variable {Thread α : Type*}

/-- One access of a thread. -/
inductive Access (Thread α : Type*)
  /-- A call begins: the cell is loaded, and `seen` is read. -/
  | load (thread : Thread) (seen : α)
  /-- The exchange succeeds, and the call returns. -/
  | exchange (thread : Thread)
  /-- The exchange fails, with `seen` as the actual value. -/
  | failed (thread : Thread) (seen : α)
  deriving DecidableEq, Repr

/-- The cell and the threads. -/
structure State (Thread α : Type*) where
  /-- The value the cell holds. -/
  latest : α
  /-- The values it held before. -/
  earlier : List α
  /-- What a thread inside the loop has in its variable `current`. -/
  current : Thread → Option α
  /-- The values returned so far, in the order of the exchanges. -/
  returned : List (Thread × α)

namespace State

/-- A cell that no thread uses. -/
def init (value : α) : State Thread α := ⟨value, [], fun _ => none, []⟩

/-- The modification order. -/
def order (s : State Thread α) : List α := s.latest :: s.earlier

end State

section run

variable [DecidableEq Thread] [DecidableEq α] (next : α → α)

/-- The effect of an access. -/
def step (s : State Thread α) : Access Thread α → Option (State Thread α)
  | .load thread seen =>
    if s.current thread = none ∧ seen ∈ s.order then
      some { s with current := Function.update s.current thread (some seen) }
    else none
  | .exchange thread =>
    if s.current thread = some s.latest then
      some { latest := next s.latest
             earlier := s.order
             current := Function.update s.current thread none
             returned := s.returned ++ [(thread, next s.latest)] }
    else none
  | .failed thread seen =>
    if s.current thread ≠ none ∧ seen ∈ s.order then
      some { s with current := Function.update s.current thread (some seen) }
    else none

/-- The effect of a schedule. -/
def run (s : State Thread α) : List (Access Thread α) → Option (State Thread α)
  | [] => some s
  | access :: rest => (step next s access).bind fun s' => run s' rest

variable {next} {s s' : State Thread α} {access : Access Thread α}

/-- An access leaves the cell alone or is an exchange. -/
theorem step_cases (h : step next s access = some s') :
    (s'.latest = s.latest ∧ s'.earlier = s.earlier ∧ s'.returned = s.returned) ∨
      ∃ thread, s'.latest = next s.latest ∧ s'.earlier = s.order ∧
        s'.returned = s.returned ++ [(thread, next s.latest)] := by
  cases access with
  | load =>
    simp only [step] at h
    split_ifs at h
    obtain rfl := Option.some.inj h
    exact Or.inl ⟨rfl, rfl, rfl⟩
  | exchange thread =>
    simp only [step] at h
    split_ifs at h
    obtain rfl := Option.some.inj h
    exact Or.inr ⟨thread, rfl, rfl, rfl⟩
  | failed =>
    simp only [step] at h
    split_ifs at h
    obtain rfl := Option.some.inj h
    exact Or.inl ⟨rfl, rfl, rfl⟩

/-- What holds behind every schedule: the cell holds the iterate that was returned last, and the calls
returned the iterates in their order. -/
structure Iterated (next : α → α) (value : α) (s : State Thread α) : Prop where
  latest : s.latest = next^[s.returned.length] value
  returned : s.returned.map Prod.snd = (List.range s.returned.length).map fun k => next^[k + 1] value

variable {value : α}

theorem Iterated.step (hs : Iterated next value s) (h : step next s access = some s') :
    Iterated next value s' := by
  rcases step_cases h with ⟨hlatest, -, hreturned⟩ | ⟨thread, hlatest, -, hreturned⟩
  · refine ⟨?_, ?_⟩
    · rw [hlatest, hreturned, hs.latest]
    · rw [hreturned, hs.returned]
  · have hnext : next s.latest = next^[s.returned.length + 1] value := by
      rw [hs.latest, Function.iterate_succ_apply']
    refine ⟨?_, ?_⟩
    · rw [hlatest, hreturned, List.length_append, List.length_singleton, hnext]
    · rw [hreturned, List.map_append, hs.returned, List.length_append, List.length_singleton,
        List.range_succ, List.map_append, List.map_singleton, List.map_singleton, hnext]

theorem Iterated.run (hs : Iterated next value s) {schedule : List (Access Thread α)}
    (h : run next s schedule = some s') : Iterated next value s' := by
  induction schedule generalizing s with
  | nil => exact Option.some.inj h ▸ hs
  | cons access rest ih =>
    obtain ⟨s₁, hstep, hrest⟩ := Option.bind_eq_some_iff.mp h
    exact ih (hs.step hstep) hrest

/-- **Every schedule returns the iterates of the update**, one to each call, in the order of the
successful exchanges. -/
theorem iterated_run {schedule : List (Access Thread α)}
    (h : run next (State.init value) schedule = some s) : Iterated next value s :=
  Iterated.run ⟨rfl, rfl⟩ h

end run

end GmvPjsip.Lib.AtomicCell
