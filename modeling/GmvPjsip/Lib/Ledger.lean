import Mathlib.Algebra.Order.BigOperators.Group.List
import Mathlib.Algebra.Order.Ring.Nat
import Mathlib.Data.List.Basic
import Mathlib.Logic.Relation

/-!
# Ledgers

A system that emits events, some of which answer something it was asked for. What it owes is a number:
an answer is paid out of it, and only what is asked for adds to it.

* `Ledger`: one step keeps the books valid, only adds to the events, and pays its answers.
  `Ledger.of_changes`: a step that is a sequence of changes, of which only the first may raise what is
  owed, makes a ledger.
* `Ledger.run_pays`: a run gives no more answers than it was asked for.
* `Ledger.run_settled`: a system that owes nothing gives no answer until it is asked again.
* `Confined`: what is owed is owed by certain items of the system. `Confined.run`: it stays there if what
  a step leaves comes from what there was, `Descends`. `Confined.run_silent`: steps that make none of these
  items answer give no answer.
-/

namespace GmvPjsip.Lib

variable {S A E : Type*}

/-- One step of a system: `valid` is an invariant, `asks` what a step is asked for, `owed` what can
still be answered, and `answer` says which events are answers. -/
structure Ledger (valid : S → Prop) (step : S → A → S) (events : S → List E) (asks : A → ℕ)
    (owed : S → ℕ) (answer : E → Bool) : Prop where
  keeps : ∀ {s} (a : A), valid s → valid (step s a)
  emits : ∀ {s} (a : A), valid s → events s <+: events (step s a)
  pays : ∀ {s} (a : A), valid s →
    (events (step s a)).countP answer + owed (step s a) ≤ (events s).countP answer + owed s + asks a

namespace Ledger

/-- The events of one step. -/
def news (step : S → A → S) (events : S → List E) (s : S) (a : A) : List E :=
  (events (step s a)).drop (events s).length

variable {valid : S → Prop} {step : S → A → S} {events : S → List E} {asks : A → ℕ} {owed : S → ℕ}
  {answer : E → Bool} {s : S}

theorem events_step (l : Ledger valid step events asks owed answer) (hs : valid s) (a : A) :
    events (step s a) = events s ++ news step events s a := by
  obtain ⟨rest, hrest⟩ := l.emits a hs
  rw [news, ← hrest, List.drop_left]

/-- A step that gives no answer has none among its events. -/
theorem news_eq_zero (l : Ledger valid step events asks owed answer) (hs : valid s) {a : A}
    (h : (events (step s a)).countP answer = (events s).countP answer) :
    (news step events s a).countP answer = 0 := by
  rw [l.events_step hs a, List.countP_append] at h
  omega

theorem run_keeps (l : Ledger valid step events asks owed answer) (hs : valid s) (as : List A) :
    valid (as.foldl step s) := by
  induction as generalizing s with
  | nil => exact hs
  | cons a rest ih => exact ih (l.keeps a hs)

/-- **A run gives no more answers than it owed and was asked for.** -/
theorem run_pays (l : Ledger valid step events asks owed answer) (hs : valid s) (as : List A) :
    (events (as.foldl step s)).countP answer + owed (as.foldl step s) ≤
      (events s).countP answer + owed s + (as.map asks).sum := by
  induction as generalizing s with
  | nil => exact Nat.le_add_right _ _
  | cons a rest ih =>
    have hstep := l.pays a hs
    have hrest := ih (l.keeps a hs)
    rw [List.map_cons, List.sum_cons, List.foldl_cons]
    omega

theorem run_emits (l : Ledger valid step events asks owed answer) (hs : valid s) (as : List A) :
    events s <+: events (as.foldl step s) := by
  induction as generalizing s with
  | nil => exact List.prefix_rfl
  | cons a rest ih => exact (l.emits a hs).trans (ih (l.keeps a hs))

/-- **Who owes nothing gives no answer until asked.** -/
theorem run_settled (l : Ledger valid step events asks owed answer) (hs : valid s)
    (howed : owed s = 0) {as : List A} (has : (as.map asks).sum = 0) :
    (events (as.foldl step s)).countP answer = (events s).countP answer ∧
      owed (as.foldl step s) = 0 := by
  have hpays := l.run_pays hs as
  have hgrows : (events s).countP answer ≤ (events (as.foldl step s)).countP answer :=
    (l.run_emits hs as).sublist.countP_le
  constructor <;> omega

/-- **A ledger from changes.** The books of a system are a view of it, and a step is a sequence of changes
of the books. Each change keeps them sound and only adds to the events; it pays its answers, and only the
first may raise what is owed, by what is asked for. -/
theorem of_changes {B : Type*} (view : S → B) (debt : B → ℕ) {sound : B → Prop} {log : B → List E}
    {change : B → A → B → B → Prop}
    (hsteps : ∀ {s} (a : A), sound (view s) →
      Relation.ReflTransGen (change (view s) a) (view s) (view (step s a)))
    (hkeeps : ∀ {b₀ a b b'}, sound b → change b₀ a b b' → sound b')
    (hemits : ∀ {b₀ a b b'}, change b₀ a b b' → log b <+: log b')
    (hpays : ∀ {b₀ a b b'}, change b₀ a b b' →
      (log b').countP answer + debt b' ≤ (log b).countP answer + debt b ∨
        b = b₀ ∧ (log b').countP answer + debt b' ≤ (log b).countP answer + debt b + asks a) :
    Ledger (fun s => sound (view s)) step (fun s => log (view s)) asks (fun s => debt (view s))
      answer where
  keeps := fun {s} a hs => by
    have hchanges := hsteps a hs
    generalize view (step s a) = b at hchanges ⊢
    induction hchanges with
    | refl => exact hs
    | tail _ hchange ih => exact hkeeps ih hchange
  emits := fun {s} a hs => by
    have hchanges := hsteps a hs
    generalize view (step s a) = b at hchanges ⊢
    induction hchanges with
    | refl => exact List.prefix_rfl
    | tail _ hchange ih => exact ih.trans (hemits hchange)
  pays := fun {s} a hs => by
    have hchanges := hsteps a hs
    generalize view (step s a) = b at hchanges ⊢
    induction hchanges with
    | refl => exact Nat.le_add_right _ _
    | tail _ hchange ih =>
      rcases hpays hchange with hkept | ⟨rfl, hraised⟩
      · exact Nat.le_trans hkept ih
      · exact hraised

end Ledger

/-! ## Where an answer can come from -/

section confined

variable {I : Type*} {items : S → List I} {owes : I → ℕ} {P : I → Prop} {s s' : S}

/-- Only items that meet `P` owe anything. -/
def Confined (items : S → List I) (owes : I → ℕ) (P : I → Prop) (s : S) : Prop :=
  ∀ i ∈ items s, owes i ≠ 0 → P i

/-- An item that owes something comes from one that did, and meets `P` if that one does. -/
def Descends (items : S → List I) (owes : I → ℕ) (P : I → Prop) (s s' : S) : Prop :=
  ∀ i' ∈ items s', owes i' ≠ 0 → ∃ i ∈ items s, owes i ≠ 0 ∧ (P i → P i')

/-- Nothing is owed exactly if nobody owes anything. -/
theorem sum_owes_eq_zero : ((items s).map owes).sum = 0 ↔ ∀ i ∈ items s, owes i = 0 := by
  rw [List.sum_eq_zero_iff]
  constructor
  · exact fun h i hi => h _ (List.mem_map_of_mem hi)
  · intro h n hn
    obtain ⟨i, hi, rfl⟩ := List.mem_map.mp hn
    exact h i hi

/-- What is owed by certain items is still owed by them after a step that only lets items descend. -/
theorem Confined.descends (h : Confined items owes P s) (hdescends : Descends items owes P s s') :
    Confined items owes P s' := by
  intro i' hi' howes
  obtain ⟨i, hi, howed, hP⟩ := hdescends i' hi' howes
  exact hP (h i hi howed)

variable {valid : S → Prop} {step : S → A → S} {events : S → List E} {answer : E → Bool}

/-- **What is owed stays where it is**, in any number of steps. -/
theorem Confined.run (hkeeps : ∀ {s} (a : A), valid s → valid (step s a))
    (hdescends : ∀ {s} (a : A), valid s → Descends items owes P s (step s a)) (hs : valid s)
    (h : Confined items owes P s) (as : List A) : Confined items owes P (as.foldl step s) := by
  induction as generalizing s with
  | nil => exact h
  | cons a rest ih => exact ih (hkeeps a hs) (h.descends (hdescends a hs))

/-- **Steps that make none of these items answer give no answer.** -/
theorem Confined.run_silent (hkeeps : ∀ {s} (a : A), valid s → valid (step s a))
    (hdescends : ∀ {s} (a : A), valid s → Descends items owes P s (step s a)) {quiet : A → Prop}
    (hquiet : ∀ {s a}, valid s → Confined items owes P s → quiet a →
      (events (step s a)).countP answer = (events s).countP answer)
    (hs : valid s) (h : Confined items owes P s) {as : List A} (has : ∀ a ∈ as, quiet a) :
    (events (as.foldl step s)).countP answer = (events s).countP answer := by
  induction as generalizing s with
  | nil => rfl
  | cons a rest ih =>
    have hrest := ih (hkeeps a hs) (h.descends (hdescends a hs)) fun b hb => has b (.tail _ hb)
    rw [List.foldl_cons, hrest]
    exact hquiet hs h (has a (.head _))

end confined

end GmvPjsip.Lib
