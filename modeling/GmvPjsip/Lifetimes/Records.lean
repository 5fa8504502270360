import GmvPjsip.Basic
import GmvPjsip.Lib.Holds
import Mathlib.Data.List.Nodup
import Mathlib.Logic.Function.Basic

/-!
# When records are freed

Calls, subscriptions and dialog operations are held by the functions that use them, and freed by whoever
lets go of them last. Each kind has a copy of the three functions for this. Here are the copies, on
records in memory: `none` is the use of a record that was freed.

* `Shim` has the memory of the records, the two lists they are in, and what was freed.
* `Shim.hold`, `Shim.release` and `Shim.removeLinked` are what the copies share; each function of the
  source is one of them, with what is its own.
* `Change` is what one step on one record does: its counter makes the step of `Counter.step`, and the
  record is in `frees` once more exactly if the step frees it. `hold_change`, `release_change` and
  `removeLinked_change` say so of the functions.
-/

namespace GmvPjsip.Lifetimes

open GmvPjsip.Lib.Holds

/-! ## Memory -/

/-- The number of values of an `unsigned`. -/
def unsignedSize : ℕ := 2 ^ 32

/-- A pointer to a record. -/
inductive Pointer
  | inviteCall (address : ℕ)
  | subscription (address : ℕ)
  | dialogOperation (address : ℕ)
  deriving DecidableEq, Repr

/-- What a dialog operation refers to. -/
structure Operation where
  restoredDialog : Option ℕ
  restoredSessionHeld : Bool
  restoredCall : Option ℕ
  deriving DecidableEq, Repr

/-- The records. `counters` are `active_calls` and `cleanup_pending` of those that are allocated,
`inviteCalls` and `subscriptions` the lists of the runtime. `bodies` are the bodies that subscriptions
own. `frees` are the records handed to `free`, the latest first, and `endedSessions` the dialogs given to
`pjsip_dlg_dec_session`. -/
structure Shim where
  counters : Pointer → Option Counter
  inviteCalls : List ℕ
  subscriptions : List ℕ
  bodies : ℕ → Option Bytes
  operations : ℕ → Operation
  frees : List Pointer
  endedSessions : List ℕ

/-! ## The code -/

section code
variable (s : Shim)

/-- Write the two fields of a record. -/
def Shim.store (p : Pointer) (c : Counter) : Shim :=
  { s with counters := Function.update s.counters p (some c) }

/-- `free`. -/
def Shim.free (p : Pointer) : Option Shim := do
  let _ ← s.counters p
  some { s with counters := Function.update s.counters p none, frees := p :: s.frees }

/-- `free(call->body); free(call)`. -/
def Shim.freeSubscription (address : ℕ) : Option Shim :=
  { s with bodies := Function.update s.bodies address none }.free (.subscription address)

/-- Hold a record. -/
def Shim.hold (p : Pointer) : Option Shim := do
  let c ← s.counters p
  some (s.store p (c.hold unsignedSize))

/-- Let go of a record; the last one frees it if it was removed. -/
def Shim.release (p : Pointer) (destroy : Shim → Option Shim) : Option Shim := do
  let c ← s.counters p
  if c.active = 0 then some s
  else
    let c := { c with active := c.active - 1 }
    let s := s.store p c
    if c.active = 0 ∧ c.pending then destroy s else some s

/-- Remove a record that the list, where it is found, is left without, and free it unless it is held.
`unlinked` is the result of the walk along the list. -/
def Shim.removeLinked (p : Pointer) (unlinked : Option Shim) (destroy : Shim → Option Shim) :
    Option Shim := do
  let c ← s.counters p
  if c.pending then some s
  else match unlinked with
    | none => some s
    | some s =>
      let s := s.store p { c with pending := true }
      if c.active = 0 then destroy s else some s

/-- Source: `shim.c`, `gmv_hold_invite_call` -/
def Shim.holdInviteCall (call : ℕ) : Option Shim := s.hold (.inviteCall call)

/-- Source: `shim.c`, `gmv_release_invite_call` -/
def Shim.releaseInviteCall (call : ℕ) : Option Shim :=
  s.release (.inviteCall call) fun s => s.free (.inviteCall call)

/-- The walk along `runtime->invite_calls`. -/
def Shim.unlinkInviteCall (call : ℕ) : Option Shim :=
  if call ∈ s.inviteCalls then some { s with inviteCalls := s.inviteCalls.erase call } else none

/-- Source: `shim.c`, `gmv_remove_invite_call` -/
def Shim.removeInviteCall (call : ℕ) : Option Shim :=
  s.removeLinked (.inviteCall call) (s.unlinkInviteCall call) fun s => s.free (.inviteCall call)

/-- Source: `shim.c`, `gmv_hold_subscription` -/
def Shim.holdSubscription (call : ℕ) : Option Shim := s.hold (.subscription call)

/-- Source: `shim.c`, `gmv_release_subscription` -/
def Shim.releaseSubscription (call : ℕ) : Option Shim :=
  s.release (.subscription call) fun s => s.freeSubscription call

/-- The walk along `runtime->subscriptions`. -/
def Shim.unlinkSubscription (call : ℕ) : Option Shim :=
  if call ∈ s.subscriptions then some { s with subscriptions := s.subscriptions.erase call } else none

/-- Source: `shim.c`, `gmv_remove_subscription` -/
def Shim.removeSubscription (call : ℕ) : Option Shim :=
  s.removeLinked (.subscription call) (s.unlinkSubscription call) fun s => s.freeSubscription call

/-- Source: `shim.c`, `gmv_hold_dialog_operation` -/
def Shim.holdDialogOperation (operation : ℕ) : Option Shim := s.hold (.dialogOperation operation)

/-- Source: `shim.c`, `gmv_release_dialog_operation` -/
def Shim.releaseDialogOperation (operation : ℕ) : Option Shim :=
  s.release (.dialogOperation operation) fun s => s.free (.dialogOperation operation)

/-- Give back the session of a restored dialog. -/
def Shim.endRestoredSession (operation : ℕ) : Shim :=
  let o := s.operations operation
  match o.restoredDialog with
  | some dialog =>
    if o.restoredSessionHeld then
      { s with
        operations := Function.update s.operations operation
          { o with restoredSessionHeld := false, restoredDialog := none }
        endedSessions := dialog :: s.endedSessions }
    else s
  | none => s

/-- Remove the record of a restored call. -/
def Shim.removeRestoredCall (operation : ℕ) : Option Shim :=
  let o := s.operations operation
  match o.restoredCall with
  | some call => do
      let s ← s.removeInviteCall call
      some { s with
        operations := Function.update s.operations operation { o with restoredCall := none } }
  | none => some s

/-- An operation is in no list. It is marked before the rest of the work, and `active_calls` is read
after it.
Source: `shim.c`, `gmv_complete_dialog_operation` -/
def Shim.completeDialogOperation (operation : ℕ) : Option Shim := do
  let c ← s.counters (.dialogOperation operation)
  if c.pending then some s
  else
    let s := s.store (.dialogOperation operation) { c with pending := true }
    let s ← (s.endRestoredSession operation).removeRestoredCall operation
    let c ← s.counters (.dialogOperation operation)
    if c.active = 0 then s.free (.dialogOperation operation) else some s

end code

/-! ## The lists -/

/-- The record is in the list of its kind. -/
def Shim.Listed (s : Shim) : Pointer → Prop
  | .inviteCall call => call ∈ s.inviteCalls
  | .subscription call => call ∈ s.subscriptions
  | .dialogOperation _ => False

/-- There is a list of records of this kind. -/
def Pointer.Linkable : Pointer → Prop
  | .dialogOperation _ => False
  | _ => True

/-- In the lists are the records that were not removed, each once. -/
structure Shim.Linked (s : Shim) : Prop where
  inviteCalls : s.inviteCalls.Nodup
  subscriptions : s.subscriptions.Nodup
  listed : ∀ p, s.Listed p ↔ p.Linkable ∧ ∃ c, s.counters p = some c ∧ c.pending = false

/-! ## One step on one record -/

/-- What a step on the record `p` does. -/
structure Change (s s' : Shim) (p : Pointer) (c : Counter) (step : Step) : Prop where
  counters : s'.counters = Function.update s.counters p (c.step unsignedSize step)
  frees : s'.frees = if c.step unsignedSize step = none then p :: s.frees else s.frees
  inviteCalls : s'.inviteCalls.Sublist s.inviteCalls
  subscriptions : s'.subscriptions.Sublist s.subscriptions
  listed : ∀ q, s'.Listed q ↔ s.Listed q ∧ (q = p → step ≠ .remove)

section change
variable {s s' : Shim} {p : Pointer} {c : Counter} {step : Step}

theorem Shim.store_self (s : Shim) (p : Pointer) (c : Counter) : (s.store p c).counters p = some c :=
  Function.update_self _ _ _

theorem Shim.store_of_ne (s : Shim) {p q : Pointer} (h : q ≠ p) (c : Counter) :
    (s.store p c).counters q = s.counters q := Function.update_of_ne h _ _

theorem listed_congr (hcalls : s'.inviteCalls = s.inviteCalls)
    (hsubscriptions : s'.subscriptions = s.subscriptions) (q : Pointer) :
    s'.Listed q ↔ s.Listed q := by
  cases q with
  | inviteCall call => exact iff_of_eq (congrArg (call ∈ ·) hcalls)
  | subscription call => exact iff_of_eq (congrArg (call ∈ ·) hsubscriptions)
  | dialogOperation => exact Iff.rfl

/-- A step that is not a removal leaves the lists alone. -/
theorem Change.of_lists (hcounters : s'.counters = Function.update s.counters p (c.step unsignedSize step))
    (hfrees : s'.frees = if c.step unsignedSize step = none then p :: s.frees else s.frees)
    (hcalls : s'.inviteCalls = s.inviteCalls) (hsubscriptions : s'.subscriptions = s.subscriptions)
    (hstep : step ≠ .remove) : Change s s' p c step := by
  refine ⟨hcounters, hfrees, hcalls ▸ List.Sublist.refl _, hsubscriptions ▸ List.Sublist.refl _,
    fun q => ?_⟩
  rw [listed_congr hcalls hsubscriptions]
  exact (and_iff_left fun _ => hstep).symm

/-- `destroy` frees the record and touches no other, and no list. -/
def Destroys (destroy : Shim → Option Shim) (p : Pointer) : Prop :=
  ∀ s : Shim, s.counters p ≠ none → ∃ s', destroy s = some s' ∧
    s'.counters = Function.update s.counters p none ∧ s'.frees = p :: s.frees ∧
    s'.inviteCalls = s.inviteCalls ∧ s'.subscriptions = s.subscriptions

theorem destroys_free (p : Pointer) : Destroys (fun s => s.free p) p := by
  intro s hs
  obtain ⟨c, hc⟩ := Option.ne_none_iff_exists'.mp hs
  refine ⟨{ s with counters := Function.update s.counters p none, frees := p :: s.frees }, ?_, rfl,
    rfl, rfl, rfl⟩
  show s.free p = _
  rw [Shim.free, hc]
  rfl

theorem destroys_freeSubscription (call : ℕ) :
    Destroys (fun s => s.freeSubscription call) (.subscription call) := fun s hs =>
  destroys_free (.subscription call) { s with bodies := Function.update s.bodies call none } hs

theorem hold_change (hc : s.counters p = some c) :
    ∃ s', s.hold p = some s' ∧ Change s s' p c .hold := by
  refine ⟨s.store p (c.hold unsignedSize), ?_, ?_⟩
  · rw [Shim.hold, hc]
    rfl
  · exact Change.of_lists rfl rfl rfl rfl Step.noConfusion

theorem release_change {destroy : Shim → Option Shim} (hdestroy : Destroys destroy p)
    (hc : s.counters p = some c) :
    ∃ s', s.release p destroy = some s' ∧ Change s s' p c .release := by
  have hstep : c.step unsignedSize .release = c.release := rfl
  rw [Shim.release, hc]
  simp only [Option.bind_eq_bind, Option.bind_some]
  by_cases hzero : c.active = 0
  · -- nothing to let go of
    have hrelease : c.release = some c := if_pos hzero
    rw [if_pos hzero]
    refine ⟨s, rfl, Change.of_lists ?_ ?_ rfl rfl Step.noConfusion⟩
    · rw [hstep, hrelease, ← hc, Function.update_eq_self]
    · rw [hstep, hrelease]
      rfl
  rw [if_neg hzero]
  by_cases hlast : c.active - 1 = 0 ∧ c.pending = true
  · have hrelease : c.release = none := by rw [Counter.release, if_neg hzero, if_pos hlast]
    rw [if_pos hlast]
    have hthere : (s.store p { c with active := c.active - 1 }).counters p ≠ none := by
      rw [Shim.store_self]
      exact Option.some_ne_none _
    obtain ⟨s', hs', hcounters, hfrees, hcalls, hsubscriptions⟩ := hdestroy _ hthere
    refine ⟨s', hs', Change.of_lists ?_ ?_ hcalls hsubscriptions Step.noConfusion⟩
    · rw [hcounters, hstep, hrelease, Shim.store, Function.update_idem]
    · rw [hfrees, hstep, hrelease]
      rfl
  · have hrelease : c.release = some { c with active := c.active - 1 } := by
      rw [Counter.release, if_neg hzero, if_neg hlast]
    rw [if_neg hlast]
    refine ⟨_, rfl, Change.of_lists ?_ ?_ rfl rfl Step.noConfusion⟩
    · rw [hstep, hrelease]
      rfl
    · rw [hstep, hrelease]
      rfl

/-- The walk along the list takes out the record, and changes nothing else. -/
structure Unlinks (s s' : Shim) (p : Pointer) : Prop where
  counters : s'.counters = s.counters
  frees : s'.frees = s.frees
  inviteCalls : s'.inviteCalls.Sublist s.inviteCalls
  subscriptions : s'.subscriptions.Sublist s.subscriptions
  listed : ∀ q, s'.Listed q ↔ s.Listed q ∧ q ≠ p

theorem unlinkInviteCall_unlinks (hs : s.Linked) {call : ℕ} (h : s.Listed (.inviteCall call)) :
    ∃ s', s.unlinkInviteCall call = some s' ∧ Unlinks s s' (.inviteCall call) := by
  refine ⟨_, if_pos h, rfl, rfl, List.erase_sublist, List.Sublist.refl _, fun q => ?_⟩
  cases q with
  | inviteCall other =>
    show other ∈ s.inviteCalls.erase call ↔ other ∈ s.inviteCalls ∧ _
    rw [hs.inviteCalls.mem_erase_iff, and_comm, Ne, Ne, Pointer.inviteCall.injEq]
  | subscription => exact (and_iff_left Pointer.noConfusion).symm
  | dialogOperation => exact (and_iff_left Pointer.noConfusion).symm

theorem unlinkSubscription_unlinks (hs : s.Linked) {call : ℕ} (h : s.Listed (.subscription call)) :
    ∃ s', s.unlinkSubscription call = some s' ∧ Unlinks s s' (.subscription call) := by
  refine ⟨_, if_pos h, rfl, rfl, List.Sublist.refl _, List.erase_sublist, fun q => ?_⟩
  cases q with
  | inviteCall => exact (and_iff_left Pointer.noConfusion).symm
  | subscription other =>
    show other ∈ s.subscriptions.erase call ↔ other ∈ s.subscriptions ∧ _
    rw [hs.subscriptions.mem_erase_iff, and_comm, Ne, Ne, Pointer.subscription.injEq]
  | dialogOperation => exact (and_iff_left Pointer.noConfusion).symm

/-- A record that was removed is in no list, and removing it again changes nothing. -/
theorem remove_again_change (hs : s.Linked) (hc : s.counters p = some c) (hpending : c.pending = true) :
    Change s s p c .remove := by
  have hremove : c.step unsignedSize .remove = some c := if_pos hpending
  have hnot : ¬s.Listed p := by
    intro hlisted
    obtain ⟨-, c', hc', hpending'⟩ := (hs.listed p).mp hlisted
    rw [hc] at hc'
    rw [Option.some.inj hc', hpending'] at hpending
    cases hpending
  refine ⟨?_, ?_, List.Sublist.refl _, List.Sublist.refl _, fun q => ?_⟩
  · rw [hremove, ← hc, Function.update_eq_self]
  · rw [hremove]
    rfl
  · refine ⟨fun hq => ⟨hq, fun heq => ?_⟩, fun hq => hq.1⟩
    rw [heq] at hq
    exact absurd hq hnot

/-- A record that was taken out of its list, and freed or marked. -/
theorem Unlinks.change {s₁ : Shim} (h : Unlinks s s₁ p)
    (hcounters : s'.counters = Function.update s₁.counters p (c.step unsignedSize .remove))
    (hfrees : s'.frees = if c.step unsignedSize .remove = none then p :: s₁.frees else s₁.frees)
    (hcalls : s'.inviteCalls = s₁.inviteCalls) (hsubscriptions : s'.subscriptions = s₁.subscriptions) :
    Change s s' p c .remove := by
  refine ⟨?_, ?_, ?_, ?_, fun q => ?_⟩
  · rw [hcounters, h.counters]
  · rw [hfrees, h.frees]
  · rw [hcalls]
    exact h.inviteCalls
  · rw [hsubscriptions]
    exact h.subscriptions
  · rw [listed_congr hcalls hsubscriptions, h.listed]
    exact and_congr_right fun _ => ⟨fun hne heq => absurd heq hne, fun h heq => h heq rfl⟩

/-- A record that was not removed is found in its list. -/
theorem removeLinked_change (hs : s.Linked) {unlinked : Option Shim} {destroy : Shim → Option Shim}
    (hlinkable : p.Linkable) (hunlinked : s.Listed p → ∃ s', unlinked = some s' ∧ Unlinks s s' p)
    (hdestroy : Destroys destroy p) (hc : s.counters p = some c) :
    ∃ s', s.removeLinked p unlinked destroy = some s' ∧ Change s s' p c .remove := by
  have hstep : c.step unsignedSize .remove = c.remove := rfl
  rw [Shim.removeLinked, hc]
  simp only [Option.bind_eq_bind, Option.bind_some]
  by_cases hpending : c.pending = true
  · rw [if_pos hpending]
    exact ⟨s, rfl, remove_again_change hs hc hpending⟩
  rw [if_neg hpending]
  obtain ⟨s₁, hs₁, hunlinks⟩ :=
    hunlinked ((hs.listed p).mpr ⟨hlinkable, c, hc, Bool.eq_false_iff.mpr hpending⟩)
  rw [hs₁]
  simp only
  by_cases hzero : c.active = 0
  · have hremove : c.remove = none := by rw [Counter.remove, if_neg hpending, if_pos hzero]
    have hthere : (s₁.store p { c with pending := true }).counters p ≠ none := by
      rw [Shim.store_self]
      exact Option.some_ne_none _
    rw [if_pos hzero]
    obtain ⟨s', hs', hcounters, hfrees, hcalls, hsubscriptions⟩ := hdestroy _ hthere
    refine ⟨s', hs', hunlinks.change ?_ ?_ hcalls hsubscriptions⟩
    · rw [hcounters, hstep, hremove, Shim.store, Function.update_idem]
    · rw [hfrees, hstep, hremove, if_pos rfl]
      rfl
  · have hremove : c.remove = some { c with pending := true } := by
      rw [Counter.remove, if_neg hpending, if_neg hzero]
    rw [if_neg hzero]
    refine ⟨_, rfl, hunlinks.change ?_ ?_ rfl rfl⟩
    · rw [hstep, hremove]
      rfl
    · rw [hstep, hremove]
      rfl

end change

end GmvPjsip.Lifetimes
