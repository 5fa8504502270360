import GmvPjsip.Calls.Changes

/-!
# Responses that overtake each other

A call has up to two operations under way: its INVITE, and the BYE or CANCEL that ends it. Three
callbacks take the record of a call out of the list, each under a condition of its own.

* `Overtakes`: a final response meets a call whose session is already disconnected while the final
  response of the other operation is still to come. The record is removed nevertheless.
* `calls_kept_until_answered`: that is the only way a session callback removes a record too early, and
  the only way the end of a BYE or CANCEL goes unreported.
* `cancel_overtaken_by_invite`: a 487 that comes in before the 200 of the CANCEL.
-/

namespace GmvPjsip.Calls

open GmvPjsip.Auth
open GmvPjsip.Commands

/-! ## Definitions -/

/-- A final response to the operation `id`. -/
def CallEvent.IsFinal (id : ℕ) (e : CallEvent) : Prop :=
  e.eventType = .outboundResponse ∧ e.operationId = id ∧ 200 ≤ e.statusCode

instance (id : ℕ) : DecidablePred (CallEvent.IsFinal id) := fun _ => inferInstanceAs (Decidable (_ ∧ _))

/-- A signal of an INVITE session. -/
def Signal.OfSession : Signal → Prop
  | .operationTsx _ _ _ => False
  | _ => True

/-- The final response to a BYE or CANCEL of a session. -/
def Signal.Ends (session : ℕ) (σ : Signal) : Prop :=
  ∃ tx rdata, σ = .inviteTsx session tx rdata ∧ tx.IsEnding ∧ 200 ≤ tx.statusCode

/-- The transaction is the first of two to be answered, and the session is disconnected already. -/
structure InviteCall.Overtaken (r : InviteCall) (tx : Transaction) : Prop where
  kind : tx.IsInvite ∨ tx.IsEnding
  final : 200 ≤ tx.statusCode
  disconnected : r.invite = some .disconnected
  unanswered : r.inviteFinalEmitted = false
  busy : r.dialogOperationId ≠ 0

/-- The signal is a final response that overtakes another one of the same session. -/
def Overtakes (calls : List InviteCall) (session : ℕ) (σ : Signal) : Prop :=
  ∃ r ∈ calls, ∃ tx rdata, r.serial = session ∧ σ = .inviteTsx session tx rdata ∧ r.Overtaken tx

/-- One of the signals overtakes. -/
def OvertakenDuring (s : CallRuntime) (session : ℕ) (σs : List Signal) : Prop :=
  ∃ pre τ post, σs = pre ++ τ :: post ∧ Overtakes (s.signals pre).inviteCalls session τ

/-! ## One record -/

section record

variable (tx : Transaction) (rdata : Option RxData) (r : InviteCall)

theorem mem_transactionEvent {id : ℕ} (hid : id ≠ 0) (hfinal : 200 ≤ tx.statusCode) :
    ∃ e, transactionEvent tx rdata id = [e] ∧ e.IsFinal id := by
  have hreported : ¬(id = 0 ∨ tx.statusCode < 100) := by omega
  unfold transactionEvent
  rw [if_neg hreported]
  exact ⟨_, rfl, rfl, rfl, hfinal⟩

/-- What a session state change removes has nothing under way. -/
theorem inviteOnStateChanged_dropped (h : (inviteOnStateChanged r).dropped = true) :
    (inviteOnStateChanged r).call.inviteFinalEmitted = true ∧
      (inviteOnStateChanged r).call.dialogOperationId = 0 := by
  unfold inviteOnStateChanged at h ⊢
  split_ifs at h ⊢ with hkeep
  simpa using (not_or.mp hkeep).2

variable {tx rdata r} {q : Reaction}

/-- What a transaction event removes has nothing under way, unless the event overtakes. -/
theorem TsxReaction.dropped_iff (hreact : TsxReaction tx rdata r q) :
    (q.dropped = true → q.call.inviteFinalEmitted = true ∧ q.call.dialogOperationId = 0) ↔
      ¬r.Overtaken tx := by
  cases hreact with
  | request huas =>
    refine iff_of_true (by simp) ?_
    rintro ⟨hinvite | hending, -, -, -, -⟩
    · exact absurd (huas.symm.trans hinvite.1) (by decide)
    · exact absurd (huas.symm.trans hending.1) (by decide)
  | repeated hinvite hfinal hemitted =>
    exact iff_of_true (by simp) fun h => absurd (hemitted.symm.trans h.unanswered) (by decide)
  | progress => exact iff_of_true (by simp) fun h => absurd h.final (by omega)
  | answered hinvite hfinal hemitted hlive => exact iff_of_true (by simp) fun h => hlive h.disconnected
  | answeredLast hinvite hfinal hemitted hover =>
    simp only [forall_const, true_and]
    exact ⟨fun hidle h => h.busy hidle, fun h => by_contra fun hbusy =>
      h ⟨Or.inl hinvite, hfinal, hover, hemitted, hbusy⟩⟩
  | ending => exact iff_of_true (by simp) fun h => absurd h.final (by omega)
  | ended hending hbusy hfinal hlive => exact iff_of_true (by simp) fun h => hlive h.disconnected
  | endedLast hending hbusy hfinal hover =>
    simp only [forall_const, and_true]
    exact ⟨fun hemitted h => absurd (hemitted.symm.trans h.unanswered) (by decide),
      fun h => by_contra fun hemitted =>
        h ⟨Or.inr hending, hfinal, hover, Bool.eq_false_iff.mpr hemitted, hbusy⟩⟩
  | ignored hother hinvite hidle =>
    refine iff_of_true (by simp) ?_
    rintro ⟨hkind | hending, -, -, -, hbusy⟩
    · exact hinvite hkind.2
    · exact hbusy (hidle hending)

/-- A record that says its INVITE was answered has reported the answer, or does it now. -/
theorem TsxReaction.answers (hreact : TsxReaction tx rdata r q)
    (h : q.call.inviteFinalEmitted = true) (hid : r.operationId ≠ 0) :
    r.inviteFinalEmitted = true ∨ ∃ e ∈ q.events, e.IsFinal r.operationId := by
  cases hreact with
  | answered hinvite hfinal | answeredLast hinvite hfinal =>
    obtain ⟨e, hevents, he⟩ := mem_transactionEvent tx rdata hid hfinal
    exact Or.inr ⟨e, by rw [hevents]; exact List.mem_singleton.mpr rfl, he⟩
  | repeated hinvite hfinal hemitted => exact Or.inl hemitted
  | request | progress | ending | ended | endedLast | ignored => exact Or.inl h

/-- While a BYE or CANCEL is under way, an event that is not its final response and does not overtake it
leaves the record in the list. -/
theorem TsxReaction.keeps (hreact : TsxReaction tx rdata r q) (hsession : r.invite ≠ none)
    (hbusy : r.dialogOperationId ≠ 0) (hends : ¬(tx.IsEnding ∧ 200 ≤ tx.statusCode))
    (hover : ¬r.Overtaken tx) :
    q.dropped = false ∧ q.call.invite ≠ none ∧ q.call.dialogOperationId = r.dialogOperationId := by
  cases hreact with
  | answeredLast hinvite hfinal hemitted hdisconnected =>
    exact absurd ⟨Or.inl hinvite, hfinal, hdisconnected, hemitted, hbusy⟩ hover
  | ended hending _ hfinal | endedLast hending _ hfinal => exact absurd ⟨hending, hfinal⟩ hends
  | _ => exact ⟨rfl, hsession, rfl⟩

end record

/-! ## One signal -/

variable {r : InviteCall} {session : ℕ} {b : Book}

section signal

variable {b : Book} {σ : Signal}

/-- A record of a session, and what overtakes there. -/
theorem overtakes_iff (hb : b.Sound) (hr : r ∈ b.calls) (tx : Transaction) (rdata : Option RxData) :
    (∃ session, Overtakes b.calls session (.inviteTsx r.serial tx rdata)) ↔ r.Overtaken tx := by
  constructor
  · rintro ⟨session, r', hr', tx', rdata', hserial, hσ, hover⟩
    obtain ⟨hsession, rfl, rfl⟩ := Signal.inviteTsx.inj hσ
    obtain rfl := eq_of_serial_eq hb hr hr' (hsession.trans hserial.symm)
    exact hover
  · exact fun hover => ⟨r.serial, r, hr, tx, rdata, rfl, rfl, hover⟩

/-- What a session signal removes has nothing under way, unless the signal overtakes. -/
theorem signal_removed (hb : b.Sound) (hσ : σ.OfSession) :
    ∃ gone, (b.signal σ).removed = b.removed ++ gone ∧
      ((∀ r ∈ gone, r.inviteFinalEmitted = true ∧ r.dialogOperationId = 0) ↔
        ¬∃ session, Overtakes b.calls session σ) := by
  cases σ with
  | enters session state =>
    refine ⟨[], ?_, iff_of_true (fun _ hr => absurd hr List.not_mem_nil) ?_⟩
    · show (b.react session _).removed = _
      rcases react_split hb (f := fun r => ⟨{ r with invite := some state, told := false }, [], false⟩)
        (fun _ => ⟨rfl, rfl, rfl, rfl, rfl, rfl⟩) session with
        ⟨-, hsame⟩ | ⟨pre, r, post, -, -, -, heq⟩
      · rw [hsame, List.append_nil]
      · rw [heq]
        rfl
    · rintro ⟨_, _, _, _, _, _, hne, _⟩
      cases hne
  | stateChanged session =>
    have hnone : ¬∃ session', Overtakes b.calls session' (.stateChanged session) := by
      rintro ⟨_, _, _, _, _, _, hne, _⟩
      cases hne
    show ∃ gone, (b.react session _).removed = _ ∧ _
    rcases react_split hb sameCall_inviteOnStateChanged session with
      ⟨-, hsame⟩ | ⟨pre, r, post, -, -, -, heq⟩
    · exact ⟨[], by rw [hsame, List.append_nil],
        iff_of_true (fun _ hr => absurd hr List.not_mem_nil) hnone⟩
    · refine ⟨if (inviteOnStateChanged r).dropped then [(inviteOnStateChanged r).call] else [],
        by rw [heq]; rfl, iff_of_true (fun r' hr' => ?_) hnone⟩
      by_cases hdropped : (inviteOnStateChanged r).dropped = true
      · rw [if_pos hdropped, List.mem_singleton] at hr'
        exact hr' ▸ inviteOnStateChanged_dropped r hdropped
      · rw [if_neg hdropped] at hr'
        cases hr'
  | inviteTsx session tx rdata =>
    show ∃ gone, (b.react session _).removed = _ ∧ _
    rcases react_split hb (sameCall_inviteOnTsxStateChanged tx rdata) session with
      ⟨hnone, hsame⟩ | ⟨pre, r, post, hcalls, rfl, -, heq⟩
    · refine ⟨[], by rw [hsame, List.append_nil],
        iff_of_true (fun _ hr => absurd hr List.not_mem_nil) ?_⟩
      rintro ⟨_, r, hr, _, _, hserial, hσ, hover⟩
      obtain ⟨rfl, -, -⟩ := Signal.inviteTsx.inj hσ
      exact absurd ((hnone r hr hserial).symm.trans hover.disconnected) nofun
    · refine ⟨if (inviteOnTsxStateChanged tx rdata r).dropped then
          [(inviteOnTsxStateChanged tx rdata r).call] else [], by rw [heq]; rfl, ?_⟩
      rw [overtakes_iff hb (by simp [hcalls]), ← (inviteOnTsxStateChanged_spec tx rdata r).dropped_iff]
      by_cases hdropped : (inviteOnTsxStateChanged tx rdata r).dropped = true
      · simp [hdropped]
      · simp [hdropped]
  | operationTsx => exact hσ.elim

/-- A session signal may overtake a BYE or CANCEL under way, be its final response, or leave it under
way. -/
theorem signal_keeps (hb : b.Sound) (hσ : σ.OfSession) (hr : r ∈ b.calls)
    (hsession : r.invite ≠ none) (hbusy : r.dialogOperationId ≠ 0) (hends : ¬σ.Ends r.serial)
    (hover : ¬Overtakes b.calls r.serial σ) :
    ∃ r' ∈ (b.signal σ).calls, r'.serial = r.serial ∧ r'.invite ≠ none ∧
      r'.dialogOperationId = r.dialogOperationId := by
  -- a reaction of another session leaves `r` alone; its own leaves a record with the BYE under way
  have hreact : ∀ (session : ℕ) (f : InviteCall → Reaction), (∀ r : InviteCall, r.SameCall (f r).call) →
      (r.serial = session → (f r).dropped = false ∧ (f r).call.invite ≠ none ∧
        (f r).call.dialogOperationId = r.dialogOperationId) →
      ∃ r' ∈ (b.react session f).calls, r'.serial = r.serial ∧ r'.invite ≠ none ∧
        r'.dialogOperationId = r.dialogOperationId := by
    intro session f hsame hf
    rcases react_split hb hsame session with ⟨-, heq⟩ | ⟨pre, r₁, post, hcalls, hserial, -, heq⟩
    · exact ⟨r, by rwa [heq], rfl, hsession, rfl⟩
    rw [heq]
    by_cases hown : r = r₁
    · subst hown
      obtain ⟨hkept, hlive, hid⟩ := hf hserial
      refine ⟨(f r).call, ?_, (hsame r).serial, hlive, hid⟩
      simp [Book.splice, hkept]
    · have hmem : r ∈ pre ++ post := by
        rw [hcalls, List.mem_append, List.mem_cons] at hr
        rw [List.mem_append]
        tauto
      refine ⟨r, ?_, rfl, hsession, rfl⟩
      simp only [Book.splice, List.mem_append] at hmem ⊢
      tauto
  cases σ with
  | enters session state =>
    exact hreact session _ (fun _ => ⟨rfl, rfl, rfl, rfl, rfl, rfl⟩) fun _ =>
      ⟨rfl, Option.some_ne_none state, rfl⟩
  | stateChanged session =>
    refine hreact session _ sameCall_inviteOnStateChanged fun _ => ?_
    unfold inviteOnStateChanged
    rw [if_pos (Or.inr (Or.inr hbusy))]
    exact ⟨rfl, hsession, rfl⟩
  | inviteTsx session tx rdata =>
    refine hreact session _ (sameCall_inviteOnTsxStateChanged tx rdata) fun hown => ?_
    subst hown
    exact (inviteOnTsxStateChanged_spec tx rdata r).keeps hsession hbusy
      (fun h => hends ⟨tx, rdata, rfl, h⟩) fun h => hover ⟨r, hr, tx, rdata, rfl, rfl, h⟩
  | operationTsx => exact hσ.elim

/-- What overtakes is the last signal the record sees. -/
theorem overtakes_removes (hb : b.Sound) (hover : Overtakes b.calls session σ) :
    session ∈ (b.signal σ).removed.map InviteCall.serial := by
  obtain ⟨r, hr, tx, rdata, rfl, rfl, hrecord⟩ := hover
  have hsame := sameCall_inviteOnTsxStateChanged tx rdata
  show r.serial ∈ (b.react r.serial _).removed.map InviteCall.serial
  rcases react_split hb hsame r.serial with ⟨hnone, -⟩ | ⟨pre, r₁, post, hcalls, hserial, -, heq⟩
  · exact absurd ((hnone r hr rfl).symm.trans hrecord.disconnected) nofun
  obtain rfl := eq_of_serial_eq hb (by simp [hcalls]) hr hserial
  have hdropped : (inviteOnTsxStateChanged tx rdata r₁).dropped = true := by
    by_contra hkept
    exact (inviteOnTsxStateChanged_spec tx rdata r₁).dropped_iff.mp (fun h => absurd h hkept) hrecord
  rw [heq]
  simp [Book.splice, hdropped, (hsame r₁).serial]

/-- A record that was removed reacts no more. -/
theorem react_of_removed (hb : b.Sound) (hgone : session ∈ b.removed.map InviteCall.serial)
    {f : InviteCall → Reaction}
    (hf : ∀ r : InviteCall, r.SameCall (f r).call) : b.react session f = b := by
  rcases react_split hb hf session with ⟨-, heq⟩ | ⟨pre, r, post, hcalls, rfl, -, -⟩
  · exact heq
  · have honce := hb.once
    rw [List.map_append, List.nodup_append'] at honce
    exact absurd (List.mem_map_of_mem (show r ∈ b.calls by simp [hcalls])) (honce.2.2 hgone)

/-- Nothing that was removed comes back. -/
theorem removed_subset_signal (hb : b.Sound) (hσ : σ.OfSession) : b.removed ⊆ (b.signal σ).removed := by
  obtain ⟨gone, heq, -⟩ := signal_removed hb hσ
  rw [heq]
  exact List.subset_append_left _ _

end signal

/-! ## Many signals -/

section signals

variable {b : Book} {σs : List Signal}

theorem signals_append (b : Book) (σs τs : List Signal) :
    b.signals (σs ++ τs) = (b.signals σs).signals τs := List.foldl_append

theorem sound_signals (hb : b.Sound) (σs : List Signal) : (b.signals σs).Sound := by
  induction σs generalizing b with
  | nil => exact hb
  | cons σ rest ih => exact ih (sound_signal hb σ)

/-- A BYE or CANCEL that is not overtaken stays under way until its final response. -/
theorem signals_keep (hb : b.Sound) (hr : r ∈ b.calls) (hsession : r.invite ≠ none)
    (hbusy : r.dialogOperationId ≠ 0) (hσs : ∀ σ ∈ σs, σ.OfSession ∧ ¬σ.Ends r.serial)
    (hover : ¬∃ pre τ post, σs = pre ++ τ :: post ∧ Overtakes (b.signals pre).calls r.serial τ) :
    ∃ r' ∈ (b.signals σs).calls, r'.serial = r.serial ∧ r'.invite ≠ none ∧
      r'.dialogOperationId = r.dialogOperationId := by
  -- one signal at a time: the record after it is again one with the BYE under way
  induction σs generalizing b r with
  | nil => exact ⟨r, hr, rfl, hsession, rfl⟩
  | cons σ rest ih =>
    obtain ⟨hσ, hends⟩ := hσs σ List.mem_cons_self
    obtain ⟨r', hr', hserial, hsession', hid⟩ := signal_keeps hb hσ hr hsession hbusy hends
      fun h => hover ⟨[], σ, rest, rfl, h⟩
    have hrest := ih (sound_signal hb σ) hr' hsession' (hid ▸ hbusy)
      (fun τ hτ => by
        rw [hserial]
        exact hσs τ (List.mem_cons_of_mem σ hτ)) fun ⟨pre, τ, post, hsplit, h⟩ =>
          hover ⟨σ :: pre, τ, post, by rw [hsplit]; rfl, hserial ▸ h⟩
    obtain ⟨r'', hr'', hserial', hsession'', hid'⟩ := hrest
    exact ⟨r'', hr'', hserial'.trans hserial, hsession'', hid'.trans hid⟩

theorem removed_subset_signals (hb : b.Sound) (hσs : ∀ σ ∈ σs, σ.OfSession) :
    b.removed ⊆ (b.signals σs).removed := by
  induction σs generalizing b with
  | nil => exact fun _ h => h
  | cons σ rest ih =>
    have hfirst := removed_subset_signal hb (hσs σ List.mem_cons_self)
    exact List.Subset.trans hfirst
      (ih (sound_signal hb σ) fun τ hτ => hσs τ (List.mem_cons_of_mem σ hτ))

/-- A call that was overtaken has been removed. -/
theorem removed_of_overtaken (hb : b.Sound) (hσs : ∀ σ ∈ σs, σ.OfSession)
    (hover : ∃ pre τ post, σs = pre ++ τ :: post ∧ Overtakes (b.signals pre).calls session τ) :
    session ∈ (b.signals σs).removed.map InviteCall.serial := by
  obtain ⟨pre, τ, post, rfl, h⟩ := hover
  have hpre := sound_signals hb pre
  have hgone := overtakes_removes hpre h
  have hlater : ((b.signals pre).signal τ).removed ⊆ (b.signals (pre ++ τ :: post)).removed := by
    rw [signals_append]
    exact removed_subset_signals (sound_signal hpre τ) fun σ hσ => hσs σ (by simp [hσ])
  exact List.map_subset _ hlater hgone

/-- The final response to a BYE or CANCEL is reported exactly if it was not overtaken. -/
theorem ending_reported_iff (hb : b.Sound) (hr : r ∈ b.calls) (hsession : r.invite ≠ none)
    (hbusy : r.dialogOperationId ≠ 0)
    (hσs : ∀ σ ∈ σs, σ.OfSession ∧ ¬σ.Ends r.serial) {tx : Transaction} (hending : tx.IsEnding)
    (hfinal : 200 ≤ tx.statusCode) (rdata : Option RxData) :
    (∃ e, ((b.signals σs).signal (.inviteTsx r.serial tx rdata)).events = (b.signals σs).events ++ [e] ∧
        e.IsFinal r.dialogOperationId) ↔
      ¬∃ pre τ post, σs = pre ++ τ :: post ∧ Overtakes (b.signals pre).calls r.serial τ := by
  have hsame := sameCall_inviteOnTsxStateChanged tx rdata
  have hb' := sound_signals hb σs
  constructor
  · rintro ⟨e, hevents, -⟩ hover
    have hgone := removed_of_overtaken hb (fun σ hσ => (hσs σ hσ).1) hover
    have hnothing : (b.signals σs).signal (.inviteTsx r.serial tx rdata) = b.signals σs :=
      react_of_removed hb' hgone hsame
    rw [hnothing] at hevents
    simpa using congrArg List.length hevents
  · intro hover
    obtain ⟨r', hr', hserial, hsession', hid⟩ := signals_keep hb hr hsession hbusy hσs hover
    show ∃ e, ((b.signals σs).react r.serial _).events = _ ∧ _
    rcases react_split hb' hsame r.serial with ⟨hnone, -⟩ | ⟨pre, r₁, post, hcalls, hown, -, heq⟩
    · exact absurd (hnone r' hr' hserial) hsession'
    obtain rfl := eq_of_serial_eq hb' (by simp [hcalls]) hr' (hown.trans hserial.symm)
    obtain ⟨e, hevent, he⟩ := mem_transactionEvent tx rdata (hid ▸ hbusy) hfinal
    refine ⟨e, ?_, hid ▸ he⟩
    rw [heq]
    show _ ++ (inviteOnTsxStateChanged tx rdata r₁).events = _
    have hreact := inviteOnTsxStateChanged_spec tx rdata r₁
    generalize inviteOnTsxStateChanged tx rdata r₁ = q at hreact
    have hmethod : tx.method ≠ .invite := by
      rcases hending.2 with h | h <;> simp [h]
    have hbusy' : r₁.dialogOperationId ≠ 0 := hid ▸ hbusy
    cases hreact with
    | ended | endedLast => rw [hevent]
    | request huas => exact absurd (huas.symm.trans hending.1) (by decide)
    | repeated hinvite | progress hinvite | answered hinvite | answeredLast hinvite =>
      exact absurd hinvite.2 hmethod
    | ending => omega
    | ignored _ _ hidle => exact absurd (hidle hending) hbusy'

end signals

/-! ## Runs -/

/-- A record that says so has reported the final response to its INVITE. -/
def Book.Answered (b : Book) : Prop :=
  ∀ r ∈ b.removed ++ b.calls, r.operationId ≠ 0 → r.inviteFinalEmitted = true →
    ∃ e ∈ b.events, e.IsFinal r.operationId

theorem Touch.answers {b₀ : Book} {op : Op} {q : Reaction} (htouch : Touch b₀ op b r q)
    (hemitted : q.call.inviteFinalEmitted = true)
    (hid : r.operationId ≠ 0) :
    r.inviteFinalEmitted = true ∨ ∃ e ∈ q.events, e.IsFinal r.operationId := by
  cases htouch with
  | tsx _ _ hreact => exact hreact.answers hemitted hid
  | stateChanged =>
    unfold inviteOnStateChanged at hemitted
    split_ifs at hemitted <;> exact Or.inl hemitted
  | enters | captured | inviteFailed | ends | endFailed => exact Or.inl hemitted

theorem Book.Answered.emit (hI : b.Answered) (events : List CallEvent) :
    (b.emit events).Answered := by
  intro r hr hid hemitted
  obtain ⟨e, he, hfinal⟩ := hI r hr hid hemitted
  exact ⟨e, List.mem_append_left _ he, hfinal⟩

/-- A new record is not answered, or not of the application. -/
theorem Book.Answered.push (hI : b.Answered) {call : InviteCall}
    (hcall : call.operationId ≠ 0 → call.inviteFinalEmitted = false) : (b.push call).Answered := by
  intro r hr hid hemitted
  rcases List.mem_cons.mp (List.perm_middle.mem_iff.mp hr) with rfl | hold
  · exact absurd (hemitted.symm.trans (hcall hid)) (by decide)
  · exact hI r hold hid hemitted

theorem Book.Answered.splice (hI : b.Answered) {pre post : List InviteCall}
    (hcalls : b.calls = pre ++ r :: post) {q : Reaction}
    (hid : q.call.operationId = r.operationId)
    (hanswers : q.call.inviteFinalEmitted = true → r.operationId ≠ 0 →
      r.inviteFinalEmitted = true ∨ ∃ e ∈ q.events, e.IsFinal r.operationId) :
    (b.splice pre q post).Answered := by
  intro r' hr' hid' hemitted
  rcases mem_splice hcalls hr' with rfl | hold
  · rw [hid] at hid' ⊢
    rcases hanswers hemitted hid' with hbefore | ⟨e, he, hfinal⟩
    · exact hI.emit q.events r (List.mem_append_right _ (by simp [Book.emit, hcalls])) hid' hbefore
    · exact ⟨e, List.mem_append_right _ he, hfinal⟩
  · exact hI.emit q.events r' hold hid' hemitted

theorem Change.answered {b₀ b' : Book} {op : Op} (hI : b.Answered) (hchange : Change b₀ op b b') :
    b'.Answered := by
  cases hchange with
  | same => exact hI
  | touched hcalls htouch => exact hI.splice hcalls htouch.sameCall.operationId htouch.answers
  | invited => exact hI.push fun _ => rfl
  | accepted => exact (hI.push fun h => absurd rfl h).emit _
  | @restored command env address route =>
    have hpushed : (b.push (restoredCall b.serials address command route)).Answered :=
      hI.push fun _ => rfl
    exact hpushed
  | informs => exact hI
  | reported => exact hI.emit _
  | @completed o events => exact hI.emit events
  | @discarded o events pre post r hmem hevents hcalls =>
    have hfinished : (b.finish o events).Answered := hI.emit events
    exact hfinished.splice hcalls rfl fun hemitted _ => Or.inl hemitted
  | swept =>
    intro r' hr' hid hemitted
    rcases mem_swept hr' with ⟨r, hr, rfl⟩ | hold
    · exact hI r (List.mem_append_right _ hr) hid hemitted
    · exact hI r' hold hid hemitted

theorem runCalls_answered (ops : List Op) : (runCalls ops).book.Answered :=
  runCalls_invariant (A := fun _ _ => True) (fun _ _ _ _ => trivial)
    (fun _ hr => absurd hr List.not_mem_nil) fun _ _ _ _ _ _ _ _ hI hchange => hchange.answered hI

/-- **A session callback removes a call too early exactly if one final response overtakes another.** In
every run:
* what a signal of a session removes has its INVITE answered and no BYE or CANCEL under way, exactly if
  the signal does not overtake;
* a record that counts as answered, removed or not, has reported a final response to its INVITE;
* with a BYE or CANCEL under way, and whatever signals come before its final response, that response is
  reported exactly if no signal before it overtook it. -/
theorem calls_kept_until_answered (ops : List Op) : (∀ σ : Signal, σ.OfSession →
      ∃ gone, ((runCalls ops).signal σ).removed = (runCalls ops).removed ++ gone ∧
        ((∀ r ∈ gone, r.inviteFinalEmitted = true ∧ r.dialogOperationId = 0) ↔
          ¬∃ session, Overtakes (runCalls ops).inviteCalls session σ)) ∧
    (∀ r ∈ (runCalls ops).removed ++ (runCalls ops).inviteCalls, r.operationId ≠ 0 →
      r.inviteFinalEmitted = true → ∃ e ∈ (runCalls ops).events, e.IsFinal r.operationId) ∧
    (∀ r ∈ (runCalls ops).inviteCalls, r.invite ≠ none → r.dialogOperationId ≠ 0 →
      ∀ (σs : List Signal) (tx : Transaction) (rdata : Option RxData),
        (∀ σ ∈ σs, σ.OfSession ∧ ¬σ.Ends r.serial) → tx.IsEnding → 200 ≤ tx.statusCode →
        ((∃ e, (((runCalls ops).signals σs).signal (.inviteTsx r.serial tx rdata)).events =
              ((runCalls ops).signals σs).events ++ [e] ∧ e.IsFinal r.dialogOperationId) ↔
          ¬OvertakenDuring (runCalls ops) r.serial σs)) := by
  have hb := runCalls_sound ops
  refine ⟨fun σ hσ => ?_, runCalls_answered ops, ?_⟩
  · have hremoved : ((runCalls ops).signal σ).removed = ((runCalls ops).book.signal σ).removed := by
      rw [← book_signal]
      rfl
    rw [hremoved]
    exact signal_removed hb hσ
  · intro r hr hsession hbusy σs tx rdata hσs hending hfinal
    have hbook : ∀ pre : List Signal,
        ((runCalls ops).signals pre).inviteCalls = ((runCalls ops).book.signals pre).calls := fun pre => by
      rw [← book_signals]
      rfl
    have hevents : ∀ pre : List Signal,
        ((runCalls ops).signals pre).events = ((runCalls ops).book.signals pre).events := fun pre => by
      rw [← book_signals]
      rfl
    have hlast : (((runCalls ops).signals σs).signal (.inviteTsx r.serial tx rdata)).events =
        (((runCalls ops).book.signals σs).signal (.inviteTsx r.serial tx rdata)).events := by
      rw [← book_signals, ← book_signal]
      rfl
    simp only [OvertakenDuring, hbook, hevents, hlast]
    exact ending_reported_iff hb hr hsession hbusy hσs hending hfinal rdata

/-! ## A CANCEL that is overtaken -/

/-- An INVITE over UDP. -/
def plainInvite (operationId : ℕ) (callId : Bytes) : InviteCommand where
  operationId := operationId
  associationId := 1
  transport := .udp
  localCseq := 1
  callId := callId
  localTag := [97]
  targetUri := [98]
  toUri := [98]
  fromUri := [99]
  contactUri := [99]
  subject := []
  sdp := [118]

/-- PJSIP sends the INVITE without an event; its record is at `address`. -/
def plainInviteEnv (address : ℕ) : SendInviteEnv where
  ready := true
  transportFound := true
  createUac := .success
  unregister := .success
  register := .success
  sdpParse := .success
  createSession := .success
  addUsage := .success
  setTransport := .success
  callCalloc := some address
  invite := .success
  bodyPool := true
  send := ⟨.success, []⟩

/-- A BYE of a call of this runtime; before the call is answered PJSIP makes a CANCEL of it. -/
def plainBye (operationId : ℕ) (callId : Bytes) : DialogCommand where
  operationId := operationId
  method := .bye
  callId := callId
  contentType := []
  body := []
  restored := false
  associationId := 0
  transport := .unknown
  localCseq := 0
  remotePort := 0
  localUri := []
  remoteUri := []
  localTag := []
  remoteTag := []
  remoteTarget := []
  routeSet := []
  remoteAddress := []

/-- PJSIP does all it is asked for, without an event. A restored dialog gets its record at `address`. -/
def plainDialogEnv (address : ℕ) : DialogEnv where
  started := true
  restored := {
    transportFound := true
    createUac := .success
    incSession := .success
    parseRoute := fun _ => true
    setRouteSet := .success
    unregister := .success
    register := .success
    addUsage := .success
    setTransport := .success
    createRequest := .success
    bodyPool := true
    operationCalloc := true
    callCalloc := some address
    initAddress := fun _ port => .ok ⟨1, port⟩
    send := ⟨.success, []⟩ }
  bye := ⟨⟨.success, []⟩, true, ⟨.success, []⟩⟩
  info := ⟨.success, true, true, ⟨.success, []⟩⟩

/-- The INVITE is operation 1 and the CANCEL operation 2. The 487 ends the session before PJSIP calls
back for it, and the 200 of the CANCEL comes in last. -/
def cancelledRun : List Op :=
  [.invite (plainInvite 1 [1]) (plainInviteEnv 0), .dialog (plainBye 2 [1]) (plainDialogEnv 0),
    .signal (.enters 0 .disconnected), .signal (.inviteTsx 0 ⟨.uac, .invite, 487, .completed⟩ none),
    .signal (.stateChanged 0), .signal (.inviteTsx 0 ⟨.uac, .cancel, 200, .completed⟩ none)]

/-- The record of the call is removed while the CANCEL is under way, and the 200 is never reported. -/
theorem cancel_overtaken_by_invite :
    ((runCalls cancelledRun).removed.map fun r => (r.operationId, r.dialogOperationId)) = [(1, 2)] ∧
      (∃ e ∈ (runCalls cancelledRun).events, e.IsFinal 1) ∧
      ∀ e ∈ (runCalls cancelledRun).events, ¬e.IsFinal 2 := by
  decide

end GmvPjsip.Calls
