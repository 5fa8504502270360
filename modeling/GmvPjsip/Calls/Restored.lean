import GmvPjsip.Calls.Overtaking

/-!
# The records of restored dialogs

A restored request has an operation and, for as long as it is under way, a record in the list, which the
operation holds a pointer to. Completing the operation removes what the pointer points to.

* `CallRuntime.RestoredRefer`: every operation under way points to its own record, so that completing it
  removes that record and no other.
* `restored_refer_iff`: this holds throughout a run exactly if no close of an association sweeps the
  record of an operation that is still under way.
* `completion_removes_other_call`: what such an operation removes instead.
-/

namespace GmvPjsip.Calls

open GmvPjsip.Auth
open GmvPjsip.Commands
open GmvPjsip.Lib

/-! ## Definitions -/

/-- Every operation under way that has a pointer points to the record that was made with it, and
completing it takes out that record and no other. -/
def CallRuntime.RestoredRefer (s : CallRuntime) : Prop :=
  ∀ o ∈ s.operations, o.cleanupPending = false → ∀ pointer, o.restoredCall = some pointer →
    ∃ pre r post, s.inviteCalls = pre ++ r :: post ∧ r.address = pointer ∧ r.serial = o.serial ∧
      (s.completeDialogOperation o.serial).inviteCalls = pre ++ post ∧
      (s.completeDialogOperation o.serial).removed = s.removed ++ [r]

/-- If the operation closes an association, the sweep finds no record of an operation under way. -/
def CallRuntime.SparesRestored (s : CallRuntime) : Op → Prop
  | .close command env => env.transportFound = true →
      ∀ o ∈ (s.signals env.during).operations, o.cleanupPending = false →
      ∀ r ∈ (s.signals env.during).inviteCalls, o.restoredCall = some r.address →
        ¬(r.transport = command.transport ∧ r.associationId = command.associationId)
  | _ => True

/-- Every operation under way has its record, which has no session. -/
def Book.Refers (b : Book) : Prop :=
  ∀ o ∈ b.operations, ∀ pointer, o.restoredCall = some pointer →
    ∃ r ∈ b.calls, r.address = pointer ∧ r.serial = o.serial ∧ r.invite = none ∧ r.operationId = 0

/-! ## Changes -/

section changes

variable {b₀ b b' : Book} {op : Op}

/-- A record without a session that is not of an outbound INVITE stays in the list and gets none. -/
theorem Touch.keeps_restored {r : InviteCall} {q : Reaction} (htouch : Touch b₀ op b r q)
    (hsession : r.invite = none) (hid : r.operationId = 0) :
    q.dropped = false ∧ q.call.invite = none := by
  cases htouch with
  | enters _ hlive | stateChanged _ hlive | tsx _ hlive => exact absurd hsession hlive
  | ends _ _ _ _ _ hlive => exact absurd hsession hlive
  | inviteFailed _ houtbound => exact absurd hid houtbound
  | captured | endFailed => exact ⟨rfl, hsession⟩

theorem Book.Refers.splice (hI : b.Refers) {pre post : List InviteCall} {r : InviteCall}
    (hcalls : b.calls = pre ++ r :: post) {q : Reaction} (htouch : Touch b₀ op b r q) :
    (b.splice pre q post).Refers := by
  intro o ho pointer hpointer
  obtain ⟨r', hr', haddress, hserial, hsession, hid⟩ := hI o ho pointer hpointer
  by_cases hown : r' = r
  · subst hown
    obtain ⟨hkept, hnone⟩ := htouch.keeps_restored hsession hid
    have hsame := htouch.sameCall
    refine ⟨q.call, by simp [Book.splice, hkept], hsame.address.trans haddress,
      hsame.serial.trans hserial, hnone, hsame.operationId.trans hid⟩
  · refine ⟨r', ?_, haddress, hserial, hsession, hid⟩
    rw [hcalls, List.mem_append, List.mem_cons] at hr'
    simp only [Book.splice, List.mem_append]
    tauto

theorem Book.Refers.push (hI : b.Refers) (call : InviteCall) : (b.push call).Refers := by
  intro o ho pointer hpointer
  obtain ⟨r, hr, h⟩ := hI o ho pointer hpointer
  exact ⟨r, List.mem_cons_of_mem call hr, h⟩

/-- Without the operation that is completed. -/
theorem Book.Refers.finish (hI : b.Refers) (o : DialogOperation) (events : List CallEvent) :
    (b.finish o events).Refers :=
  fun o' ho' => hI o' (List.mem_filter.mp ho').1

/-- The record at the pointer of an operation is its own. -/
theorem Book.Refers.own (hI : b.Refers) (hb : b.Sound) {o : DialogOperation} (ho : o ∈ b.operations)
    {r : InviteCall} (hr : r ∈ b.calls) (hpointer : o.restoredCall = some r.address) :
    r.serial = o.serial := by
  obtain ⟨r', hr', haddress, hserial, -, -⟩ := hI o ho r.address hpointer
  obtain rfl := List.inj_on_of_nodup_map hb.addresses hr hr' haddress.symm
  exact hserial

theorem Change.refers (hb : b.Sound) (hI : b.Refers)
    (hspares : ∀ command env, op = .close command env → env.transportFound = true →
      ∀ o ∈ (b₀.signals env.during).operations, ∀ r ∈ (b₀.signals env.during).calls,
        o.restoredCall = some r.address →
          ¬(r.transport = command.transport ∧ r.associationId = command.associationId))
    (hchange : Change b₀ op b b') : b'.Refers := by
  cases hchange with
  | same => exact hI
  | touched hcalls htouch => exact hI.splice hcalls htouch
  | invited => exact hI.push _
  | accepted => exact hI.push _
  | @restored command env address route hop hkind hb₀ hid hcallId hfree =>
    intro o ho pointer hpointer
    rcases List.mem_cons.mp ho with rfl | hold
    · obtain rfl := Option.some.inj hpointer
      exact ⟨_, List.mem_cons_self, rfl, rfl, rfl, rfl⟩
    · exact hI.push (restoredCall b.serials address command route) o hold pointer hpointer
  | informs =>
    intro o ho pointer hpointer
    rcases List.mem_cons.mp ho with rfl | hold
    · cases hpointer
    · exact hI o hold pointer hpointer
  | reported => exact hI
  | completed => exact hI.finish _ _
  | @discarded o events pre post r hmem hevents hcalls hpointer =>
    -- the record that goes is the one of `o`, so that every other operation keeps its own
    have hown : r.serial = o.serial := hI.own hb hmem (by simp [hcalls]) hpointer
    intro o' ho' pointer' hpointer'
    obtain ⟨r', hr', haddress, hserial, hrest⟩ := hI.finish o events o' ho' pointer' hpointer'
    have hne : r' ≠ r := by
      rintro rfl
      have hother : o'.serial ≠ o.serial := by simpa using (List.mem_filter.mp ho').2
      exact hother (hserial.symm.trans hown)
    refine ⟨r', ?_, haddress, hserial, hrest⟩
    change r' ∈ b.calls at hr'
    rw [hcalls, List.mem_append, List.mem_cons] at hr'
    simp only [Book.splice, if_true, List.append_nil, List.mem_append]
    tauto
  | @swept command env hop hfound hb₀ =>
    intro o ho pointer hpointer
    obtain ⟨r, hr, haddress, hrest⟩ := hI o ho pointer hpointer
    have hspared := hspares command env hop hfound o (hb₀ ▸ ho) r (hb₀ ▸ hr) (haddress ▸ hpointer)
    exact ⟨r, List.mem_filter.mpr ⟨hr, decide_eq_true hspared⟩, haddress, hrest⟩

end changes

/-! ## Runs -/

section runs

variable {s : CallRuntime}

theorem mem_book_operations {o : DialogOperation} :
    o ∈ s.book.operations ↔ o ∈ s.operations ∧ o.cleanupPending = false := by
  show o ∈ s.operations.filter (fun o => !o.cleanupPending) ↔ _
  rw [List.mem_filter, Bool.not_eq_true']

theorem restoredRefer_of_refers (hs : s.book.Sound) (hI : s.book.Refers) : s.RestoredRefer := by
  intro o ho hpending pointer hpointer
  have hmem : o ∈ s.book.operations := mem_book_operations.mpr ⟨ho, hpending⟩
  obtain ⟨r, hr, rfl, hserial, -, -⟩ := hI o hmem pointer hpointer
  obtain ⟨pre, post, hcalls⟩ := List.append_of_mem hr
  have hcomplete := complete_split hs hmem hcalls hpointer []
  rw [show s.book.emit [] = s.book by simp [Book.emit], ← book_complete] at hcomplete
  refine ⟨pre, r, post, hcalls, rfl, hserial, ?_, ?_⟩
  · show (s.completeDialogOperation o.serial).book.calls = _
    rw [hcomplete]
    simp [Book.splice]
  · show (s.completeDialogOperation o.serial).book.removed = _
    rw [hcomplete]
    rfl

/-- A sweep of the record of an operation under way leaves the operation without it. -/
theorem not_restoredRefer_of_swept {command : CloseCommand} {env : CloseEnv} (hs : s.book.Sound)
    (hswept : ¬s.SparesRestored (.close command env)) :
    ¬(s.step (.close command env)).RestoredRefer := by
  simp only [CallRuntime.SparesRestored, not_forall, not_not] at hswept
  obtain ⟨hfound, o, ho, hpending, r, hr, hpointer, hmatch⟩ := hswept
  have hsound : (s.signals env.during).book.Sound := by
    rw [book_signals]
    exact sound_signals hs env.during
  have hstep : (s.step (.close command env)).book =
      (s.signals env.during).book.swept command.transport command.associationId := by
    show (processCloseCommand s command env).book = _
    rw [processCloseCommand, if_pos hfound, book_closeAssociationCalls, sweep_eq hsound]
  have hleft : o ∈ (s.step (.close command env)).book.operations := by
    rw [hstep]
    exact mem_book_operations.mpr ⟨ho, hpending⟩
  intro hrefer
  obtain ⟨ho', hpending'⟩ := mem_book_operations.mp hleft
  obtain ⟨pre, r', post, hcalls, haddress, -⟩ := hrefer o ho' hpending' r.address hpointer
  have hr' : r' ∈ (s.step (.close command env)).book.calls := by
    show r' ∈ (s.step (.close command env)).inviteCalls
    simp [hcalls]
  rw [hstep] at hr'
  obtain ⟨hold, hspared⟩ := List.mem_filter.mp hr'
  obtain rfl := List.inj_on_of_nodup_map hsound.addresses hold hr haddress
  exact of_decide_eq_true hspared hmatch

/-- **Exactly when the operations of restored dialogs never point to a dead record**: at every moment of
a run they all point to their own records, if and only if no close sweeps the record of one that is
still under way. -/
theorem restored_refer_iff (ops : List Op) :
    (∀ before after, ops = before ++ after → (runCalls before).RestoredRefer) ↔
      Throughout CallRuntime.SparesRestored ops := by
  constructor
  · intro hrefer before op after hops
    cases op with
    | close command env =>
      by_contra hswept
      have hbroken := not_restoredRefer_of_swept (runCalls_sound before) hswept
      rw [← runCalls_append] at hbroken
      exact hbroken (hrefer (before ++ [.close command env]) after (by simp [hops]))
    | signal | receive | invite | dialog | respond | incoming => trivial
  · rintro hspares before after rfl
    refine restoredRefer_of_refers (runCalls_sound before) ?_
    refine runCalls_invariant (throughout_front hspares) nofun ?_
    intro s op b b' hop _ _ hb hI hchange
    refine hchange.refers hb hI ?_
    rintro command env rfl hfound o ho r hr
    rw [← book_signals] at ho hr
    obtain ⟨hmem, hpending⟩ := mem_book_operations.mp ho
    exact hop hfound o hmem hpending r hr

end runs

/-! ## A completion that removes the record of another call -/

/-- A BYE of a dialog that was restored, over TCP association 7. -/
def restoredBye (operationId : ℕ) (callId : Bytes) : DialogCommand :=
  { plainBye operationId callId with
    restored := true
    associationId := 7
    transport := .tcp
    localCseq := 2
    remotePort := 5060
    localUri := [97]
    remoteUri := [98]
    localTag := [97]
    remoteTag := [98]
    remoteTarget := [98]
    remoteAddress := [49] }

/-- The association is closed while the restored BYE is under way, and an INVITE gets the address of its
record. -/
def closedRun : List Op :=
  [.dialog (restoredBye 1 [1]) (plainDialogEnv 0), .close ⟨7, .tcp, .success⟩ ⟨true, []⟩,
    .invite (plainInvite 2 [2]) (plainInviteEnv 0)]

/-- The operation of the BYE points to the record of the INVITE, and the final response to the BYE removes
it. -/
theorem completion_removes_other_call :
    ((runCalls closedRun).operations.map fun o => (o.operationId, o.restoredCall)) = [(1, some 0)] ∧
      ((runCalls closedRun).inviteCalls.map fun r => (r.operationId, r.address)) = [(2, 0)] ∧
      (runCalls (closedRun ++
        [.signal (.operationTsx 0 ⟨.uac, .bye, 200, .completed⟩ none)])).inviteCalls = [] := by
  decide

end GmvPjsip.Calls
