import GmvPjsip.Lifetimes.Records

/-!
# Sequences of holds, releases and removals

Any sequence of calls of the functions that hold, release and remove records, on any number of records of
the three kinds.

* `Shim.accesses` are the steps a call of a function makes on records; `Shim.history` are those that a
  sequence of calls makes on one record.
* `Effect` is what a call does: it makes its steps on the counters, keeps the lists in order and frees what
  it takes away. `complete_effect` says so of the completion of an operation, which makes steps on two
  records.
* `step_effect` and `run_tracks` say it of every call, and of a sequence of them in which no step is made
  on a freed record.
-/

namespace GmvPjsip.Lifetimes

open GmvPjsip.Lib.Holds

/-! ## Calls of the functions -/

/-- A call of a function. -/
inductive Op
  | holdInviteCall (call : ℕ)
  | releaseInviteCall (call : ℕ)
  | removeInviteCall (call : ℕ)
  | holdSubscription (call : ℕ)
  | releaseSubscription (call : ℕ)
  | removeSubscription (call : ℕ)
  | holdDialogOperation (operation : ℕ)
  | releaseDialogOperation (operation : ℕ)
  | completeDialogOperation (operation : ℕ)
  deriving DecidableEq, Repr

def Shim.step (s : Shim) : Op → Option Shim
  | .holdInviteCall call => s.holdInviteCall call
  | .releaseInviteCall call => s.releaseInviteCall call
  | .removeInviteCall call => s.removeInviteCall call
  | .holdSubscription call => s.holdSubscription call
  | .releaseSubscription call => s.releaseSubscription call
  | .removeSubscription call => s.removeSubscription call
  | .holdDialogOperation operation => s.holdDialogOperation operation
  | .releaseDialogOperation operation => s.releaseDialogOperation operation
  | .completeDialogOperation operation => s.completeDialogOperation operation

/-- A sequence of calls. -/
def Shim.run (s : Shim) : List Op → Option Shim
  | [] => some s
  | op :: ops => (s.step op).bind fun s => s.run ops

/-- The call that the completion of an operation removes. -/
def Shim.restoredCall (s : Shim) (operation : ℕ) : Option ℕ :=
  match s.counters (.dialogOperation operation) with
  | some c => if c.pending then none else (s.operations operation).restoredCall
  | none => none

/-- The steps of a call. Completion is the removal of an operation. -/
def Shim.accesses (s : Shim) : Op → List (Pointer × Step)
  | .holdInviteCall call => [(.inviteCall call, .hold)]
  | .releaseInviteCall call => [(.inviteCall call, .release)]
  | .removeInviteCall call => [(.inviteCall call, .remove)]
  | .holdSubscription call => [(.subscription call, .hold)]
  | .releaseSubscription call => [(.subscription call, .release)]
  | .removeSubscription call => [(.subscription call, .remove)]
  | .holdDialogOperation operation => [(.dialogOperation operation, .hold)]
  | .releaseDialogOperation operation => [(.dialogOperation operation, .release)]
  | .completeDialogOperation operation =>
    (.dialogOperation operation, .remove) ::
      (s.restoredCall operation).toList.map fun call => (.inviteCall call, .remove)

/-- Those of the steps that are made on the record `q`. -/
def stepsOn (q : Pointer) (accesses : List (Pointer × Step)) : List Step :=
  (accesses.filter fun access => access.1 = q).map Prod.snd

/-- The steps that a sequence of calls makes on one record. -/
def Shim.history (s : Shim) : List Op → Pointer → List Step
  | [], _ => []
  | op :: ops, q =>
    stepsOn q (s.accesses op) ++
      match s.step op with
      | some s' => s'.history ops q
      | none => []

theorem Shim.history_cons {s s' : Shim} {op : Op} {ops : List Op} {q : Pointer}
    (hstep : s.step op = some s') :
    s.history (op :: ops) q = stepsOn q (s.accesses op) ++ s'.history ops q := by
  rw [Shim.history, hstep]

theorem Shim.history_singleton {s : Shim} {op : Op} {q : Pointer} :
    s.history [op] q = stepsOn q (s.accesses op) := by
  rw [Shim.history]
  cases s.step op with
  | none => exact List.append_nil _
  | some s' => exact List.append_nil _

/-- The first calls of a sequence make the first steps. -/
theorem Shim.history_isPrefix {s : Shim} {before ops : List Op} {q : Pointer} (h : before <+: ops) :
    s.history before q <+: s.history ops q := by
  induction ops generalizing s before with
  | nil =>
    obtain rfl := List.prefix_nil.mp h
    exact List.prefix_refl _
  | cons op ops ih =>
    cases before with
    | nil => exact List.nil_prefix
    | cons op' before =>
      obtain ⟨rfl, hrest⟩ := List.cons_prefix_cons.mp h
      rw [Shim.history, Shim.history]
      apply (List.prefix_append_right_inj _).mpr
      cases s.step op' with
      | none => exact List.prefix_refl _
      | some s' => exact ih hrest

section stepsOn
variable {p q : Pointer} {step : Step} {rest : List (Pointer × Step)}

@[simp] theorem stepsOn_nil : stepsOn q [] = [] := rfl

theorem stepsOn_self : stepsOn p ((p, step) :: rest) = step :: stepsOn p rest := by
  simp [stepsOn]

theorem stepsOn_singleton : stepsOn q [(p, step)] = if p = q then [step] else [] := by
  by_cases h : p = q <;> simp [stepsOn, h]

theorem stepsOn_of_ne (h : p ≠ q) : stepsOn q ((p, step) :: rest) = stepsOn q rest := by
  simp [stepsOn, h]

end stepsOn

/-! ## What a call does -/

/-- How often a record was allocated: it is there, or it was freed. -/
def Shim.allocated (s : Shim) (q : Pointer) : ℕ :=
  s.frees.count q + if (s.counters q).isSome then 1 else 0

/-- The steps are made on the counters, a record that is gone was freed, and the lists are in order. -/
structure Effect (s s' : Shim) (accesses : List (Pointer × Step)) : Prop where
  counter : ∀ q, Lib.Holds.run unsignedSize (s.counters q) (stepsOn q accesses) = some (s'.counters q)
  allocated : ∀ q, s'.allocated q = s.allocated q
  linked : s'.Linked

section effect
variable {s s' : Shim} {p : Pointer} {c : Counter} {step : Step}

theorem allocated_congr (hcounters : s'.counters = s.counters) (hfrees : s'.frees = s.frees)
    (q : Pointer) : s'.allocated q = s.allocated q := by
  rw [Shim.allocated, Shim.allocated, hcounters, hfrees]

/-- A record that is taken away is freed. -/
theorem allocated_update (record : Option Counter) (hthere : s.counters p ≠ none)
    (hcounters : s'.counters = Function.update s.counters p record)
    (hfrees : s'.frees = if record = none then p :: s.frees else s.frees) (q : Pointer) :
    s'.allocated q = s.allocated q := by
  rw [Shim.allocated, Shim.allocated, hcounters, hfrees]
  by_cases hq : q = p
  · subst hq
    rw [Function.update_self, if_pos (Option.isSome_iff_ne_none.mpr hthere)]
    cases record with
    | none => simp
    | some c => simp
  · rw [Function.update_of_ne hq]
    congr 1
    split_ifs
    · exact List.count_cons_of_ne (Ne.symm hq)
    · rfl

theorem allocated_store (hthere : s.counters p ≠ none) (c : Counter) (q : Pointer) :
    (s.store p c).allocated q = s.allocated q := by
  refine allocated_update (some c) hthere ?_ ?_ q
  · rfl
  · rfl

/-- The lists only depend on the records that can be in one. -/
theorem Shim.Linked.congr (hs : s.Linked) (hcalls : s'.inviteCalls = s.inviteCalls)
    (hsubscriptions : s'.subscriptions = s.subscriptions)
    (hcounters : ∀ p, p.Linkable → s'.counters p = s.counters p) : s'.Linked := by
  refine ⟨hcalls ▸ hs.inviteCalls, hsubscriptions ▸ hs.subscriptions, fun p => ?_⟩
  rw [listed_congr hcalls hsubscriptions, hs.listed]
  exact and_congr_right fun hp => by rw [hcounters p hp]

/-- A removed record stays removed. -/
theorem pending_of_step {c c' : Counter} (h : c.step unsignedSize step = some c')
    (hc' : c'.pending = false) : c.pending = false := by
  cases step with
  | hold =>
    rw [← Option.some.inj h] at hc'
    exact hc'
  | release =>
    simp only [Counter.step, Counter.release] at h
    split_ifs at h
    · rw [Option.some.inj h]
      exact hc'
    · rw [← Option.some.inj h] at hc'
      exact hc'
  | remove =>
    simp only [Counter.step, Counter.remove] at h
    split_ifs at h
    · rw [Option.some.inj h]
      exact hc'
    · rw [← Option.some.inj h] at hc'
      cases hc'

/-- A step that is not a removal leaves a record in its list. -/
theorem step_of_not_pending (hc : c.pending = false) (hstep : step ≠ .remove) :
    ∃ c', c.step unsignedSize step = some c' ∧ c'.pending = false := by
  cases step with
  | hold => exact ⟨_, rfl, hc⟩
  | release =>
    simp only [Counter.step, Counter.release, hc]
    split_ifs with hzero hlast
    · exact ⟨c, rfl, hc⟩
    · exact absurd hlast.2 (by decide)
    · exact ⟨_, rfl, rfl⟩
  | remove => exact absurd rfl hstep

/-- After a removal the record is freed or marked. -/
theorem pending_of_remove {c' : Counter} (h : c.step unsignedSize .remove = some c') :
    c'.pending = true := by
  simp only [Counter.step, Counter.remove] at h
  split_ifs at h with hpending
  · rw [← Option.some.inj h]
    exact hpending
  · rw [← Option.some.inj h]

theorem Change.linked (hs : s.Linked) (hc : s.counters p = some c) (h : Change s s' p c step) :
    s'.Linked := by
  refine ⟨hs.inviteCalls.sublist h.inviteCalls, hs.subscriptions.sublist h.subscriptions, fun q => ?_⟩
  rw [h.listed, hs.listed, h.counters, and_assoc]
  refine and_congr_right fun hq => ?_
  by_cases heq : q = p
  · subst heq
    rw [Function.update_self, hc]
    constructor
    · rintro ⟨⟨c₀, hc₀, hpending⟩, hstep⟩
      rw [Option.some.inj hc₀] at *
      exact step_of_not_pending hpending (hstep rfl)
    · rintro ⟨c', hc', hpending⟩
      refine ⟨⟨c, rfl, pending_of_step hc' hpending⟩, fun _ hremove => ?_⟩
      rw [hremove] at hc'
      rw [pending_of_remove hc'] at hpending
      cases hpending
  · rw [Function.update_of_ne heq]
    exact and_iff_left fun h => absurd h heq

/-- One step on one record. -/
theorem Change.effect (hs : s.Linked) (hc : s.counters p = some c) (h : Change s s' p c step) :
    Effect s s' [(p, step)] := by
  refine ⟨fun q => ?_, fun q => ?_, h.linked hs hc⟩
  · rw [h.counters]
    by_cases hq : p = q
    · subst hq
      rw [stepsOn_self, stepsOn_nil, hc, Function.update_self]
      rfl
    · rw [stepsOn_of_ne hq, stepsOn_nil, Function.update_of_ne (Ne.symm hq)]
      rfl
  · have hthere : s.counters p ≠ none := by
      rw [hc]
      exact Option.some_ne_none c
    exact allocated_update _ hthere h.counters h.frees q

/-- What is not memory of records does not matter. -/
theorem Effect.congr {s₀ : Shim} {accesses : List (Pointer × Step)} (h : Effect s s' accesses)
    (hcounters : s.counters = s₀.counters) (hfrees : s.frees = s₀.frees) : Effect s₀ s' accesses := by
  refine ⟨fun q => ?_, fun q => ?_, h.linked⟩
  · rw [← hcounters]
    exact h.counter q
  · rw [h.allocated q]
    exact allocated_congr hcounters hfrees q

/-- A call that makes one step. -/
theorem effect_of_change {result : Option Shim} (hs : s.Linked)
    (hlive : ∀ q, Lib.Holds.run unsignedSize (s.counters q) (stepsOn q [(p, step)]) ≠ none)
    (hresult : ∀ c, s.counters p = some c → ∃ s', result = some s' ∧ Change s s' p c step) :
    ∃ s', result = some s' ∧ Effect s s' [(p, step)] := by
  cases hc : s.counters p with
  | none =>
    -- a step on a record that is not there
    have hdead := hlive p
    rw [stepsOn_self, hc] at hdead
    exact absurd rfl hdead
  | some c =>
    obtain ⟨s', hs', hchange⟩ := hresult c hc
    exact ⟨s', hs', hchange.effect hs hc⟩

end effect

/-! ## Completion -/

section complete
variable {s s' : Shim} {operation : ℕ} {c : Counter}

theorem removeInviteCall_change (hs : s.Linked) {call : ℕ} (hc : s.counters (.inviteCall call) = some c) :
    ∃ s', s.removeInviteCall call = some s' ∧ Change s s' (.inviteCall call) c .remove := by
  have hlinkable : (Pointer.inviteCall call).Linkable := trivial
  exact removeLinked_change hs hlinkable (unlinkInviteCall_unlinks hs) (destroys_free _) hc

/-- Giving back a session touches no record but the operation's own pointers. -/
theorem endRestoredSession_same (s : Shim) (operation : ℕ) :
    (s.endRestoredSession operation).counters = s.counters ∧
      (s.endRestoredSession operation).frees = s.frees ∧
      (s.endRestoredSession operation).inviteCalls = s.inviteCalls ∧
      (s.endRestoredSession operation).subscriptions = s.subscriptions ∧
      ((s.endRestoredSession operation).operations operation).restoredCall =
        (s.operations operation).restoredCall := by
  unfold Shim.endRestoredSession
  dsimp only
  split
  · split_ifs
    · refine ⟨rfl, rfl, rfl, rfl, ?_⟩
      dsimp only
      rw [Function.update_self]
    · exact ⟨rfl, rfl, rfl, rfl, rfl⟩
  · exact ⟨rfl, rfl, rfl, rfl, rfl⟩

/-- The removal of the restored call, if there is one. -/
theorem removeRestoredCall_effect (hs : s.Linked) (operation : ℕ)
    (hlive : ∀ call, (s.operations operation).restoredCall = some call →
      s.counters (.inviteCall call) ≠ none) :
    ∃ s', s.removeRestoredCall operation = some s' ∧
      Effect s s' ((s.operations operation).restoredCall.toList.map fun call =>
        (.inviteCall call, .remove)) := by
  rw [Shim.removeRestoredCall]
  cases hcall : (s.operations operation).restoredCall with
  | none =>
    refine ⟨s, rfl, ?_, ?_, hs⟩
    · intro q
      rfl
    · intro q
      rfl
  | some call =>
    obtain ⟨c, hc⟩ := Option.ne_none_iff_exists'.mp (hlive call hcall)
    obtain ⟨s₁, hs₁, hchange⟩ := removeInviteCall_change hs hc
    have heffect := hchange.effect hs hc
    dsimp only
    rw [hs₁]
    refine ⟨_, rfl, heffect.counter, heffect.allocated, ?_⟩
    refine heffect.linked.congr ?_ ?_ ?_
    · rfl
    · rfl
    · intro p _
      rfl

/-- The restored call is another record than the operation. -/
theorem stepsOn_restored (operation : ℕ) (restored : Option ℕ) : stepsOn (.dialogOperation operation)
      (restored.toList.map fun call => (Pointer.inviteCall call, Step.remove)) = [] := by
  cases restored with
  | none => rfl
  | some call => exact stepsOn_of_ne Pointer.noConfusion

/-- Operations are in no list. -/
theorem Shim.Linked.of_operation (hs : s.Linked) (hcalls : s'.inviteCalls = s.inviteCalls)
    (hsubscriptions : s'.subscriptions = s.subscriptions)
    (hcounters : ∀ p, p ≠ .dialogOperation operation → s'.counters p = s.counters p) : s'.Linked := by
  apply hs.congr hcalls hsubscriptions
  intro p hp
  apply hcounters
  rintro rfl
  exact hp

/-- The operation is marked, steps are made on other records, and then the operation makes the rest of the
step of its removal. -/
theorem marked_effect {s'' : Shim} {accesses : List (Pointer × Step)}
    (hc : s.counters (.dialogOperation operation) = some c)
    (hother : stepsOn (.dialogOperation operation) accesses = [])
    (heffect : Effect (s.store (.dialogOperation operation) { c with pending := true }) s' accesses)
    (hthere' : s'.counters (.dialogOperation operation) ≠ none)
    (hcounters : s''.counters = Function.update s'.counters (.dialogOperation operation) c.remove)
    (hfrees : s''.frees =
      if c.remove = none then .dialogOperation operation :: s'.frees else s'.frees)
    (hcalls : s''.inviteCalls = s'.inviteCalls) (hsubscriptions : s''.subscriptions = s'.subscriptions) :
    Effect s s'' ((.dialogOperation operation, .remove) :: accesses) := by
  have hthere : s.counters (.dialogOperation operation) ≠ none := by
    rw [hc]
    exact Option.some_ne_none c
  refine ⟨fun q => ?_, fun q => ?_, ?_⟩
  · by_cases hq : .dialogOperation operation = q
    · subst hq
      rw [stepsOn_self, hother, hc, hcounters, Function.update_self]
      rfl
    · rw [stepsOn_of_ne hq, hcounters, Function.update_of_ne (Ne.symm hq), ← heffect.counter q,
        s.store_of_ne (Ne.symm hq)]
  · rw [allocated_update _ hthere' hcounters hfrees q, heffect.allocated q, allocated_store hthere]
  · apply heffect.linked.of_operation hcalls hsubscriptions
    intro p hp
    rw [hcounters, Function.update_of_ne hp]

/-- The end of a completion: the operation is freed unless it is held. -/
theorem finish_effect {accesses : List (Pointer × Step)}
    (hc : s.counters (.dialogOperation operation) = some c) (hpending : c.pending = false)
    (hother : stepsOn (.dialogOperation operation) accesses = [])
    (heffect : Effect (s.store (.dialogOperation operation) { c with pending := true }) s' accesses) :
    ∃ s'', (do
        let c ← s'.counters (.dialogOperation operation)
        if c.active = 0 then s'.free (.dialogOperation operation) else some s') = some s'' ∧
      Effect s s'' ((.dialogOperation operation, .remove) :: accesses) := by
  have hmarked : s'.counters (.dialogOperation operation) = some { c with pending := true } := by
    have hkept := heffect.counter (.dialogOperation operation)
    rw [hother] at hkept
    rw [← Option.some.inj hkept]
    exact Function.update_self _ _ _
  have hthere' : s'.counters (.dialogOperation operation) ≠ none := by
    rw [hmarked]
    exact Option.some_ne_none _
  have hremove : c.remove = if c.active = 0 then none else some { c with pending := true } := by
    rw [Counter.remove, hpending]
    rfl
  rw [hmarked]
  simp only [Option.bind_eq_bind, Option.bind_some]
  by_cases hzero : c.active = 0
  · rw [if_pos hzero] at hremove
    rw [if_pos hzero, Shim.free, hmarked]
    refine ⟨_, rfl, marked_effect hc hother heffect hthere' ?_ ?_ rfl rfl⟩
    · rw [hremove]
    · rw [hremove, if_pos rfl]
  · rw [if_neg hzero] at hremove
    rw [if_neg hzero]
    refine ⟨s', rfl, marked_effect hc hother heffect hthere' ?_ ?_ rfl rfl⟩
    · rw [hremove, ← hmarked, Function.update_eq_self]
    · rw [hremove]
      rfl

/-- An operation that was completed is left as it is. -/
theorem complete_again_effect (hs : s.Linked) (hc : s.counters (.dialogOperation operation) = some c)
    (hpending : c.pending = true) : Effect s s [(.dialogOperation operation, .remove)] := by
  have hremove : c.step unsignedSize .remove = some c := if_pos hpending
  refine ⟨fun q => ?_, fun q => rfl, hs⟩
  by_cases hq : .dialogOperation operation = q
  · subst hq
    rw [stepsOn_self, stepsOn_nil, hc, run_singleton, hremove]
  · rw [stepsOn_of_ne hq]
    rfl

/-- The first completion: mark the operation, give back its session, remove its call, and finish. -/
theorem complete_first_effect (hs : s.Linked) (hc : s.counters (.dialogOperation operation) = some c)
    (hpending : c.pending = false)
    (hlive : ∀ call, (s.operations operation).restoredCall = some call →
      s.counters (.inviteCall call) ≠ none) :
    ∃ s', s.completeDialogOperation operation = some s' ∧
      Effect s s' ((.dialogOperation operation, .remove) ::
        (s.operations operation).restoredCall.toList.map fun call => (.inviteCall call, .remove)) := by
  rw [Shim.completeDialogOperation, hc]
  simp only [Option.bind_eq_bind, Option.bind_some]
  rw [if_neg (Bool.eq_false_iff.mp hpending)]
  obtain ⟨hcounters, hfrees, hcalls, hsubscriptions, hcall⟩ := endRestoredSession_same
    (s.store (.dialogOperation operation) { c with pending := true }) operation
  generalize (s.store (.dialogOperation operation) { c with pending := true }
    ).endRestoredSession operation = s₀ at hcounters hfrees hcalls hsubscriptions hcall ⊢
  have hlinked : s₀.Linked := by
    apply hs.of_operation hcalls hsubscriptions
    intro p hp
    rw [hcounters]
    exact s.store_of_ne hp _
  have hlive₀ : ∀ call, (s₀.operations operation).restoredCall = some call →
      s₀.counters (.inviteCall call) ≠ none := by
    intro call hsome
    rw [hcounters, s.store_of_ne Pointer.noConfusion]
    exact hlive call (hcall.symm.trans hsome)
  obtain ⟨s₁, hs₁, heffect⟩ := removeRestoredCall_effect hlinked operation hlive₀
  rw [hcall] at heffect
  rw [hs₁]
  exact finish_effect hc hpending (stepsOn_restored _ _) (heffect.congr hcounters hfrees)

/-- **A completion removes the operation and the restored call.** -/
theorem complete_effect (hs : s.Linked) (hlive : ∀ q, Lib.Holds.run unsignedSize (s.counters q)
      (stepsOn q (s.accesses (.completeDialogOperation operation))) ≠ none) :
    ∃ s', s.completeDialogOperation operation = some s' ∧
      Effect s s' (s.accesses (.completeDialogOperation operation)) := by
  have haccesses : s.accesses (.completeDialogOperation operation) =
      (.dialogOperation operation, .remove) ::
        (s.restoredCall operation).toList.map fun call => (.inviteCall call, .remove) := rfl
  rw [haccesses] at hlive ⊢
  cases hc : s.counters (.dialogOperation operation) with
  | none =>
    have hdead := hlive (.dialogOperation operation)
    rw [stepsOn_self, hc] at hdead
    exact absurd rfl hdead
  | some c =>
    by_cases hpending : c.pending = true
    · have hnone : s.restoredCall operation = none := by
        rw [Shim.restoredCall, hc]
        exact if_pos hpending
      rw [hnone]
      refine ⟨s, ?_, complete_again_effect hs hc hpending⟩
      rw [Shim.completeDialogOperation, hc]
      exact if_pos hpending
    · have hrestored : s.restoredCall operation = (s.operations operation).restoredCall := by
        rw [Shim.restoredCall, hc]
        exact if_neg hpending
      rw [hrestored] at hlive ⊢
      apply complete_first_effect hs hc (Bool.eq_false_iff.mpr hpending)
      intro call hcall hdead
      apply hlive (.inviteCall call)
      rw [hdead, stepsOn_of_ne Pointer.noConfusion, hcall, Option.toList_some, List.map_singleton,
        stepsOn_self]
      rfl

end complete

/-! ## Sequences of calls -/

section runs
variable {s : Shim}

/-- **What a call does.** -/
theorem step_effect (hs : s.Linked) (op : Op)
    (hlive : ∀ q, Lib.Holds.run unsignedSize (s.counters q) (stepsOn q (s.accesses op)) ≠ none) :
    ∃ s', s.step op = some s' ∧ Effect s s' (s.accesses op) := by
  cases op with
  | holdInviteCall => exact effect_of_change hs hlive fun c hc => hold_change hc
  | releaseInviteCall =>
    exact effect_of_change hs hlive fun c hc => release_change (destroys_free _) hc
  | removeInviteCall =>
    exact effect_of_change hs hlive fun c hc => removeInviteCall_change hs hc
  | holdSubscription => exact effect_of_change hs hlive fun c hc => hold_change hc
  | releaseSubscription call =>
    exact effect_of_change hs hlive fun c hc => release_change (destroys_freeSubscription call) hc
  | removeSubscription call =>
    have hlinkable : (Pointer.subscription call).Linkable := trivial
    exact effect_of_change hs hlive fun c hc => removeLinked_change hs hlinkable
      (unlinkSubscription_unlinks hs) (destroys_freeSubscription call) hc
  | holdDialogOperation => exact effect_of_change hs hlive fun c hc => hold_change hc
  | releaseDialogOperation =>
    exact effect_of_change hs hlive fun c hc => release_change (destroys_free _) hc
  | completeDialogOperation => exact complete_effect hs hlive

/-- **What a sequence of calls does**, if its steps on each record can be made. -/
theorem run_tracks (hs : s.Linked) (ops : List Op)
    (hlive : ∀ q, Lib.Holds.run unsignedSize (s.counters q) (s.history ops q) ≠ none) :
    ∃ s', s.run ops = some s' ∧ s'.Linked ∧ (∀ q, s'.allocated q = s.allocated q) ∧
      ∀ q, Lib.Holds.run unsignedSize (s.counters q) (s.history ops q) = some (s'.counters q) := by
  induction ops generalizing s with
  | nil => exact ⟨s, rfl, hs, fun q => rfl, fun q => rfl⟩
  | cons op ops ih =>
    have hfirst : ∀ q,
        Lib.Holds.run unsignedSize (s.counters q) (stepsOn q (s.accesses op)) ≠ none := by
      intro q hdead
      apply hlive q
      rw [Shim.history, run_append, hdead]
      rfl
    obtain ⟨s₁, hs₁, heffect⟩ := step_effect hs op hfirst
    have hsplit : ∀ q, Lib.Holds.run unsignedSize (s.counters q) (s.history (op :: ops) q) =
        Lib.Holds.run unsignedSize (s₁.counters q) (s₁.history ops q) := by
      intro q
      rw [Shim.history, hs₁, run_append, heffect.counter q]
      rfl
    have hrest : ∀ q, Lib.Holds.run unsignedSize (s₁.counters q) (s₁.history ops q) ≠ none := by
      intro q
      rw [← hsplit q]
      exact hlive q
    obtain ⟨s', hrun, hlinked, hallocated, hcounters⟩ := ih heffect.linked hrest
    refine ⟨s', ?_, hlinked, fun q => ?_, fun q => ?_⟩
    · rw [Shim.run, hs₁]
      exact hrun
    · rw [hallocated q, heffect.allocated q]
    · rw [hsplit q]
      exact hcounters q

end runs

end GmvPjsip.Lifetimes
