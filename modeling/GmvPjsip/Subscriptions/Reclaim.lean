import GmvPjsip.Calls.Reclaim
import GmvPjsip.Subscriptions.Attribution

/-!
# The end of a subscription record

The end of a subscription and the final response to a SUBSCRIBE can come in either order, as with a
call. A subscription has one operation at a time.

* `SubscriptionRuntime.account id` adds up what was and what can still be reported of an operation;
  `subscriptions_ledger`, `subscription_finals_le`.
* `SubscriptionCall.Spent`: nothing refers to the record any more. `Op.Orphans`: a refresh that fails
  tells the end of its own subscription. `spent_iff_orphans`: exactly that leaves a spent record.
* `records_reclaimed`: both for calls and for subscriptions.
* `failed_refresh_keeps_record`: a subscription that ends while a refresh is being sent stays in the list
  if PJSIP then refuses to send it.
-/

namespace GmvPjsip.Subscriptions

open GmvPjsip.Auth hiding RxData
open GmvPjsip.Commands
open GmvPjsip.Calls (CallEvent RxData Transaction finals finals_append finals_progress
  finals_transactionEvent transactionEvent)
open GmvPjsip.Lib

/-! ## Definitions -/

/-- The operation the application gives. -/
def Op.operationIds : Op → List ℕ
  | .subscribe command _ => [command.operationId]
  | _ => []

/-- How many final responses a record can still report for an operation. -/
def SubscriptionCall.owes (id : ℕ) (r : SubscriptionCall) : ℕ := if r.operationId = id then 1 else 0

/-- What a reaction reports of an operation, and what the record can still report after it. -/
def Reaction.account (id : ℕ) (q : Reaction) : ℕ :=
  (if q.dropped then 0 else q.call.owes id) + finals id q.events

/-- How many final responses can still be reported for an operation. -/
def SubscriptionRuntime.owed (id : ℕ) (s : SubscriptionRuntime) : ℕ :=
  (s.subscriptions.map (SubscriptionCall.owes id)).sum

/-- What was reported of an operation, and what can still be. -/
def SubscriptionRuntime.account (id : ℕ) (s : SubscriptionRuntime) : ℕ :=
  finals id s.events + s.owed id

/-- The subscription is over and PJSIP has said so, and no SUBSCRIBE is unanswered. -/
structure SubscriptionCall.Spent (r : SubscriptionCall) : Prop where
  terminated : r.subscription = some .terminated
  told : r.told = true
  idle : r.operationId = 0

instance : DecidablePred SubscriptionCall.Spent := fun r =>
  decidable_of_iff (r.subscription = some .terminated ∧ r.told = true ∧ r.operationId = 0)
    ⟨fun ⟨h, h', h''⟩ => ⟨h, h', h''⟩, fun ⟨h, h', h''⟩ => ⟨h, h', h''⟩⟩

/-- What PJSIP has made known of a subscription: the state it entered, and whether `on_evsub_state` was
called since. -/
def Signal.tells (subscription : ℕ) (state : Option EvsubState × Bool) :
    Signal → Option EvsubState × Bool
  | .enters n entered => if n = subscription then (some entered, false) else state
  | .stateChanged n => if n = subscription then (state.1, true) else state
  | .tsx .. => state
  | .notify .. => state

/-- `on_tsx_state` is called with the final response to a SUBSCRIBE. -/
def Signal.answers (subscription : ℕ) : Signal → Prop
  | .tsx n _ tx _ => n = subscription ∧ IsSubscribe tx ∧ 200 ≤ tx.statusCode
  | _ => False

/-- A refresh that PJSIP does not send: in the failing call PJSIP tells the end of the subscription, and
does not answer the refresh. -/
def Op.Orphans (s : SubscriptionRuntime) : Op → Prop
  | .subscribe command env =>
    (command.operationId ≠ 0 ∧ command.event ≠ [] ∧ env.ready = true ∧ command.callId ≠ []) ∧
    ∃ r, prepareRefresh s command env = .ok r ∧ env.start.prepare r = .success ∧
      env.start.status ≠ .success ∧
      env.start.during.foldl (Signal.tells r.serial) (r.subscription, r.told) =
        (some .terminated, true) ∧
      ∀ σ ∈ env.start.during, ¬σ.answers r.serial
  | _ => False

/-! ## At most one final response -/

variable {request : Option ℕ} {q : Reaction} {σ : Signal}

section account

variable {s₀ s s' : SubscriptionRuntime} {op : Op} {id : ℕ} {pre post : List SubscriptionCall}
  {r : SubscriptionCall}

/-- What happens to a record does not raise what it owes. -/
theorem Touch.account (hid : id ≠ 0)
    (htouch : Touch op r request q) : q.account id ≤ r.owes id := by
  cases htouch with
  | enters | replaced => simp [Reaction.account, SubscriptionCall.owes, finals]
  | stateChanged =>
    unfold onState
    split_ifs <;> simp [Reaction.account, SubscriptionCall.owes, finals]
  | @tsx _ tx rdata _ _ _ hreact =>
    have hpaid := finals_transactionEvent tx rdata id r.operationId
    cases hreact with
    | ignored => simp [Reaction.account, finals]
    | progress hkind hbusy hprogress => simp [Reaction.account, finals_progress hprogress]
    | answered | answeredLast => simpa [Reaction.account, SubscriptionCall.owes, hid.symm] using hpaid
  | @notify rdata =>
    cases rdata with
    | none => simp [onRxNotify, Reaction.account, finals]
    | some rx => simp [onRxNotify, Reaction.account, finals, CallEvent.IsFinal]
  | refreshFailed => simp [Reaction.account, SubscriptionCall.owes, finals, hid.symm]
  | abandoned => simp [Reaction.account, finals]

theorem account_splice (id : ℕ) (q : Reaction) (request : Option ℕ)
    (hcalls : s.subscriptions = pre ++ r :: post) :
    (s.splice pre q post request).account id + r.owes id = s.account id + q.account id := by
  unfold SubscriptionRuntime.account SubscriptionRuntime.owed Reaction.account
    SubscriptionRuntime.splice
  rw [hcalls, finals_append]
  cases q.dropped <;> simp <;> omega

/-- **A change raises an account by at most what the application asks for.** -/
theorem Change.account (hid : id ≠ 0) (hchange : Change s₀ op s s') : s'.account id ≤ s.account id ∨
      s = s₀ ∧ s'.account id ≤ s.account id + op.operationIds.count id := by
  cases hchange with
  | same | refused | automatic => exact Or.inl le_rfl
  | @touched pre post r request q hcalls htouch =>
    have hsplice := account_splice id q request hcalls
    have hless := htouch.account hid
    exact Or.inl (by omega)
  | @refreshed command env pre post r r' hop hs hcalls hidle hown =>
    have hsplice := account_splice id ⟨r', [], false⟩ none hcalls
    have hnew : (⟨r', [], false⟩ : Reaction).account id = op.operationIds.count id := by
      rw [hop]
      simp [Reaction.account, SubscriptionCall.owes, hown, finals, Op.operationIds, List.count_cons]
    have hkept : ((s.splice pre ⟨r', [], false⟩ post none).start r').account id =
        (s.splice pre ⟨r', [], false⟩ post none).account id := rfl
    exact Or.inr ⟨hs, by omega⟩
  | @subscribed command env r hop hs hown =>
    have hpush : ((s.push r).start r).account id = r.owes id + s.account id := by
      simp only [SubscriptionRuntime.account, SubscriptionRuntime.owed, SubscriptionRuntime.push,
        SubscriptionRuntime.start, List.map_cons, List.sum_cons]
      omega
    have hnew : r.owes id = op.operationIds.count id := by
      rw [hop]
      simp [SubscriptionCall.owes, hown, Op.operationIds, List.count_cons]
    exact Or.inr ⟨hs, by omega⟩
  | fault =>
    refine Or.inl ?_
    simp [SubscriptionRuntime.account, SubscriptionRuntime.owed, SubscriptionRuntime.emit, finals,
      CallEvent.IsFinal]
  | @swept transport associationId =>
    have hsum : ((s.subscriptions.filter fun r =>
        ¬(r.transport = transport ∧ r.associationId = associationId)).map
        (SubscriptionCall.owes id)).sum ≤ (s.subscriptions.map (SubscriptionCall.owes id)).sum :=
      (List.filter_sublist.map _).sum_le_sum fun _ _ => Nat.zero_le _
    exact Or.inl (Nat.add_le_add_left hsum _)

/-- A change only adds events. -/
theorem Change.emits (hchange : Change s₀ op s s') : s.events <+: s'.events := by
  cases hchange with
  | same | subscribed | refused | automatic | swept => exact List.prefix_rfl
  | touched | refreshed | fault => exact List.prefix_append _ _

/-- **The subscriptions are a ledger of the final responses of an operation.** -/
theorem subscriptions_ledger (hid : id ≠ 0) :
    Ledger SubscriptionRuntime.Sound SubscriptionRuntime.step SubscriptionRuntime.events
      (fun op => op.operationIds.count id) (SubscriptionRuntime.owed id) (CallEvent.IsFinal id ·) :=
  Ledger.of_changes (fun s => s) (SubscriptionRuntime.owed id) (fun op hs => step_changes hs op)
    (fun hs hchange => hchange.sound hs) Change.emits fun hchange => hchange.account hid

/-- **An operation has no more final responses than commands.** -/
theorem subscription_finals_le (ops : List Op) (hid : id ≠ 0) :
    finals id (runSubscriptions ops).events ≤ (ops.flatMap Op.operationIds).count id := by
  have hpays := (subscriptions_ledger hid).run_pays (runSubscriptions_sound []) ops
  rw [List.count_flatMap]
  exact (Nat.le_add_right _ _).trans (hpays.trans_eq (Nat.zero_add _))

end account

/-! ## No record is left behind -/

section spent

variable {s₀ s s' : SubscriptionRuntime} {op : Op}

/-- No record of the list is spent. -/
def SubscriptionRuntime.Tidy (s : SubscriptionRuntime) : Prop := ∀ r ∈ s.subscriptions, ¬r.Spent

/-- No refresh of the application fails in the course of `op`. -/
def Op.RefreshSent (op : Op) : Prop :=
  ∀ command env, op = .subscribe command env → command.callId ≠ [] → env.start.status = .success

/-- A reaction that leaves a record in the list does not leave it spent. -/
theorem Touch.not_spent {r : SubscriptionCall} (hop : op.RefreshSent) (hr : ¬r.Spent)
    (htouch : Touch op r request q)
    (hkept : q.dropped = false) : ¬q.call.Spent := by
  cases htouch with
  | enters => exact fun h => Bool.false_ne_true h.told
  | stateChanged =>
    unfold onState at hkept ⊢
    split_ifs at hkept ⊢ with hneeded
    rintro ⟨hover, -, hidle⟩
    rcases hneeded with hlive | hbusy
    · exact hlive hover
    · exact hbusy hidle
  | tsx _ _ hreact =>
    cases hreact with
    | ignored | progress => exact hr
    | answered hkind hbusy hfinal hlive => exact fun h => hlive h.terminated
    | answeredLast => cases hkept
  | notify =>
    rw [(onRxNotify_call _ r).1]
    exact hr
  | replaced => exact fun h => hr ⟨h.terminated, h.told, h.idle⟩
  | refreshFailed hsubscribe hrefresh hfailed =>
    exact absurd (hop _ _ hsubscribe hrefresh) hfailed
  | abandoned => cases hkept

/-- A change leaves no spent record, unless it is the end of a refresh that failed. -/
theorem Change.tidy (hop : op.RefreshSent) (hI : s.Tidy) (hchange : Change s₀ op s s') : s'.Tidy := by
  cases hchange with
  | same | refused | automatic | fault => exact hI
  | touched hcalls htouch =>
    intro r hr
    rcases mem_splice hcalls hr with ⟨rfl, hkept⟩ | hold
    · exact htouch.not_spent hop (hI _ (by simp [hcalls])) hkept
    · exact hI r hold
  | refreshed hsubscribe hs hcalls hidle hown hserial hstate htold =>
    intro r hr
    change r ∈ (s.splice _ _ _ none).subscriptions at hr
    rcases mem_splice hcalls hr with ⟨rfl, -⟩ | hold
    · exact fun h => hI _ (by simp [hcalls]) ⟨hstate ▸ h.terminated, htold ▸ h.told, hidle⟩
    · exact hI r hold
  | subscribed hsubscribe hs hown hserial hstate =>
    intro r hr
    rcases List.mem_cons.mp hr with rfl | hold
    · intro h
      have hnull := Option.some.inj (hstate.symm.trans h.terminated)
      cases hnull
    · exact hI r hold
  | swept => exact fun r hr => hI r (List.mem_of_mem_filter hr)

theorem signals_append (s : SubscriptionRuntime) (σs : List Signal) (σ : Signal) :
    s.signals (σs ++ [σ]) = (s.signals σs).signal σ :=
  List.foldl_concat ..

/-- Signals leave no spent record. -/
theorem signals_tidy (hs : s.Sound) (hI : s.Tidy) (σs : List Signal) :
    (s.signals σs).Sound ∧ (s.signals σs).Tidy := by
  induction σs using List.reverseRecOn with
  | nil => exact ⟨hs, hI⟩
  | append_singleton σs σ ih =>
    have hchange : Change (s.signals σs) (.signal σ) (s.signals σs) ((s.signals σs).signal σ) :=
      signal_change ih.1 (List.mem_singleton.mpr rfl)
    rw [signals_append]
    refine ⟨hchange.sound ih.1, hchange.tidy (fun command env hop => ?_) ih.2⟩
    cases hop

end spent

/-! ## One record and the signals about it -/

section follow

variable {s : SubscriptionRuntime} {r : SubscriptionCall}

/-- The record with the number `n` has an operation, and a subscription of which this is known. -/
def SubscriptionRuntime.Busy (n : ℕ) (known : Option EvsubState × Bool) (s : SubscriptionRuntime) : Prop :=
  ∃ r ∈ s.subscriptions, r.serial = n ∧ r.operationId ≠ 0 ∧ r.subscription ≠ none ∧
    (r.subscription, r.told) = known

/-- The record with the number `n`, if it is still in the list, has no operation. -/
def SubscriptionRuntime.Idle (n : ℕ) (s : SubscriptionRuntime) : Prop :=
  ∀ r ∈ s.subscriptions, r.serial = n → r.operationId = 0

/-- After a reaction the number of the record is that of no other one. -/
theorem eq_of_mem_splice {pre post : List SubscriptionCall}
    (hs : (s.splice pre q post request).Sound) (hr : r ∈ (s.splice pre q post request).subscriptions)
    (hserial : r.serial = q.call.serial) : r = q.call := by
  have hmem : q.call ∈ (s.splice pre q post request).removed ++
      (s.splice pre q post request).subscriptions := by
    cases hdropped : q.dropped <;> simp [SubscriptionRuntime.splice, hdropped]
  exact List.inj_on_of_nodup_map hs.once (List.mem_append_right _ hr) hmem hserial

/-- A signal about another record tells nothing of this one and does not answer it. -/
theorem tells_other {n : ℕ} (h : n ≠ σ.subscription) :
    (∀ state, σ.tells n state = state) ∧ ¬σ.answers n := by
  cases σ with
  | enters => exact ⟨fun state => if_neg (Ne.symm h), id⟩
  | stateChanged => exact ⟨fun state => if_neg (Ne.symm h), id⟩
  | tsx => exact ⟨fun state => rfl, fun hanswers => h hanswers.1.symm⟩
  | notify => exact ⟨fun state => rfl, id⟩

/-- PJSIP does not take a subscription away. -/
theorem tells_live (σ : Signal) (n : ℕ) {known : Option EvsubState × Bool} (h : known.1 ≠ none) :
    (σ.tells n known).1 ≠ none := by
  cases σ with
  | enters | stateChanged =>
    simp only [Signal.tells]
    split_ifs <;> simp [h]
  | tsx | notify => exact h

/-- A record with an operation that a signal does not answer stays, with its operation and with what the
signal tells. -/
theorem reaction_busy (hbusy : r.operationId ≠ 0) (hmine : r.serial = σ.subscription)
    (hopen : ¬σ.answers r.serial) :
    (σ.reaction r).dropped = false ∧ (σ.reaction r).call.operationId = r.operationId ∧
      ((σ.reaction r).call.subscription, (σ.reaction r).call.told) =
        σ.tells r.serial (r.subscription, r.told) := by
  cases σ with
  | enters => exact ⟨rfl, rfl, (if_pos hmine.symm).symm⟩
  | stateChanged n =>
    have hreact : (Signal.stateChanged n).reaction r = ⟨{ r with told := true }, [], false⟩ :=
      if_pos (Or.inr hbusy)
    rw [hreact]
    exact ⟨rfl, rfl, (if_pos hmine.symm).symm⟩
  | tsx n request tx rdata =>
    have hreact := onTsxState_spec tx rdata r
    have hanswer : ¬(IsSubscribe tx ∧ 200 ≤ tx.statusCode) := fun h => hopen ⟨hmine.symm, h⟩
    simp only [Signal.reaction, Signal.tells]
    generalize onTsxState tx rdata r = q at hreact
    cases hreact with
    | ignored | progress => exact ⟨rfl, rfl, rfl⟩
    | answered hkind _ hfinal | answeredLast hkind _ hfinal => exact absurd ⟨hkind, hfinal⟩ hanswer
  | notify n rdata =>
    obtain ⟨hcall, hkept⟩ := onRxNotify_call rdata r
    rw [Signal.reaction, hcall]
    exact ⟨hkept, rfl, rfl⟩

/-- No callback gives a record an operation, and an answer takes it away. -/
theorem reaction_idle (h : r.operationId = 0 ∨ σ.answers r.serial) :
    (σ.reaction r).call.operationId = 0 := by
  cases σ with
  | enters => exact h.resolve_right id
  | stateChanged =>
    simp only [Signal.reaction, onState]
    split_ifs <;> exact h.resolve_right id
  | tsx n request tx rdata =>
    have hreact := onTsxState_spec tx rdata r
    simp only [Signal.reaction]
    generalize onTsxState tx rdata r = q at hreact
    cases hreact with
    | ignored hother =>
      rcases h with hidle | ⟨-, hkind, -⟩
      · exact hidle
      · exact hother.resolve_left (not_not.mpr hkind)
    | progress hkind hbusy hprogress =>
      rcases h with hidle | ⟨-, -, hfinal⟩
      · exact hidle
      · exact absurd hfinal (Nat.not_le.mpr hprogress)
    | answered | answeredLast => rfl
  | notify n rdata =>
    rw [Signal.reaction, (onRxNotify_call rdata r).1]
    exact h.resolve_right id

section

variable {n : ℕ} {known : Option EvsubState × Bool} {σ : Signal}

/-- A signal that does not answer a busy record leaves it busy, and tells of it what it tells. -/
theorem signal_busy (hs : s.Sound) (h : s.Busy n known) (hopen : ¬σ.answers n) :
    (s.signal σ).Busy n (σ.tells n known) := by
  obtain ⟨r, hr, rfl, hbusy, hlive, rfl⟩ := h
  rcases signal_reacts hs σ with ⟨hnone, hsame⟩ | ⟨pre, r₁, post, hcalls, hown, -, heq⟩
  · rw [hsame, (tells_other fun hmine => hlive (hnone r hr hmine)).1]
    exact ⟨r, hr, rfl, hbusy, hlive, rfl⟩
  rw [heq]
  by_cases hmine : r = r₁
  · subst hmine
    obtain ⟨hkept, hid, htells⟩ := reaction_busy hbusy hown hopen
    have hstays : (σ.reaction r).call.subscription ≠ none :=
      (congrArg Prod.fst htells).trans_ne (tells_live σ r.serial hlive)
    refine ⟨(σ.reaction r).call, ?_, reaction_serial σ r, hid ▸ hbusy, hstays, htells⟩
    simp [SubscriptionRuntime.splice, hkept]
  · have hother : r.serial ≠ σ.subscription := fun h =>
      hmine (eq_of_serial_eq hs hr (by simp [hcalls]) (h.trans hown.symm))
    have hin : r ∈ pre ∨ r ∈ post := by simpa [hcalls, hmine] using hr
    rw [(tells_other hother).1]
    refine ⟨r, ?_, rfl, hbusy, hlive, rfl⟩
    simp only [SubscriptionRuntime.splice, List.mem_append]
    tauto

/-- A signal that answers a busy record, or that finds it idle, leaves it idle. -/
theorem signal_idle (hs : s.Sound) (h : (∃ known, s.Busy n known) ∧ σ.answers n ∨ s.Idle n) :
    (s.signal σ).Idle n := by
  have hsound := sound_signal hs σ
  rcases signal_reacts hs σ with ⟨hnone, hsame⟩ | ⟨pre, r₁, post, hcalls, hown, -, heq⟩
  · rw [hsame]
    refine h.resolve_left ?_
    rintro ⟨⟨_, r, hr, rfl, -, hlive, -⟩, hanswers⟩
    exact (tells_other fun hmine => hlive (hnone r hr hmine)).2 hanswers
  rw [heq] at hsound ⊢
  intro r hr hserial
  by_cases hmine : r₁.serial = n
  · obtain rfl := eq_of_mem_splice hsound hr (by rw [reaction_serial, hserial, hmine])
    exact reaction_idle (h.symm.imp (· r₁ (by simp [hcalls]) hmine) (hmine ▸ ·.2))
  · rcases mem_splice hcalls hr with ⟨rfl, -⟩ | hold
    · exact absurd ((reaction_serial σ r₁).symm.trans hserial) hmine
    · refine h.resolve_left (fun ⟨_, hanswers⟩ => ?_) r hold hserial
      exact (tells_other fun hn => hmine (hown.trans hn.symm)).2 hanswers

/-- **A record with an operation, after any signals.** If none of them answers it, it is still busy, and
what they told is what is known of it. If one of them does, it is idle. -/
theorem signals_busy (hs : s.Sound) (hI : s.Tidy) (h : s.Busy n known) (σs : List Signal) :
    (∀ σ ∈ σs, ¬σ.answers n) ∧ (s.signals σs).Busy n (σs.foldl (Signal.tells n) known) ∨
      ¬(∀ σ ∈ σs, ¬σ.answers n) ∧ (s.signals σs).Idle n := by
  induction σs using List.reverseRecOn with
  | nil => exact .inl ⟨fun _ hσ => absurd hσ List.not_mem_nil, h⟩
  | append_singleton σs σ ih =>
    have hsound := (signals_tidy hs hI σs).1
    rw [signals_append, List.foldl_concat]
    simp only [List.forall_mem_append, List.forall_mem_singleton]
    rcases ih with ⟨hopen, hbusy⟩ | ⟨hanswered, hidle⟩
    · by_cases hanswers : σ.answers n
      · exact .inr ⟨(·.2 hanswers), signal_idle hsound (.inl ⟨⟨_, hbusy⟩, hanswers⟩)⟩
      · exact .inl ⟨⟨hopen, hanswers⟩, signal_busy hsound hbusy hanswers⟩
    · exact .inr ⟨(hanswered ·.1), signal_idle hsound (.inr hidle)⟩

end

end follow

/-! ## A refresh that fails -/

section orphan

variable {s : SubscriptionRuntime} {command : SubscribeCommand} {env : SubscribeEnv}

/-- A refresh takes a record that has a subscription. -/
theorem prepareRefresh_live {r' : SubscriptionCall} (h : prepareRefresh s command env = .ok r') :
    r'.subscription ≠ none := by
  unfold prepareRefresh at h
  cases hfind : s.findSubscription command.callId with
  | none => simp [hfind] at h
  | some call =>
    rw [hfind] at h
    simp only [replaceSubscriptionBody] at h
    split_ifs at h with hnone hbusy hmalloc
    · cases h
    · obtain rfl := Except.ok.inj h
      exact hnone

/-- A record whose operation is cleared after signals is spent exactly if they told its end and did not
answer the operation. -/
theorem clear_spent_iff {r : SubscriptionCall} (hs : s.Sound) (hI : s.Tidy)
    (hr : r ∈ s.subscriptions) (hbusy : r.operationId ≠ 0) (hlive : r.subscription ≠ none)
    (σs : List Signal) :
    ¬((s.signals σs).write r.serial fun r => { r with operationId := 0 }).Tidy ↔
      σs.foldl (Signal.tells r.serial) (r.subscription, r.told) = (some .terminated, true) ∧
        ∀ σ ∈ σs, ¬σ.answers r.serial := by
  obtain ⟨hsound, htidy⟩ := signals_tidy hs hI σs
  have hafter := signals_busy hs hI ⟨r, hr, rfl, hbusy, hlive, rfl⟩ σs
  constructor
  · intro hspent
    simp only [SubscriptionRuntime.Tidy, not_forall, not_not] at hspent
    obtain ⟨r', hr', hover⟩ := hspent
    obtain ⟨r₁, hr₁, rfl⟩ := List.mem_map.mp hr'
    by_cases hmine : r₁.serial = r.serial
    · rw [if_pos hmine] at hover
      rcases hafter with ⟨hopen, r₂, hr₂, hserial, -, -, hknown⟩ | ⟨-, hidle⟩
      · obtain rfl := eq_of_serial_eq hsound hr₁ hr₂ (hmine.trans hserial.symm)
        exact ⟨hknown.symm.trans (Prod.ext hover.terminated hover.told), hopen⟩
      · exact absurd ⟨hover.terminated, hover.told, hidle r₁ hr₁ hmine⟩ (htidy r₁ hr₁)
    · rw [if_neg hmine] at hover
      exact absurd hover (htidy r₁ hr₁)
  · rintro ⟨htold, hopen⟩ htidy'
    obtain ⟨-, r₁, hr₁, hmine, -, -, hknown⟩ :=
      hafter.resolve_right (·.1 hopen)
    rw [htold] at hknown
    have hwritten := htidy' _ (List.mem_map_of_mem hr₁)
    rw [if_pos hmine] at hwritten
    exact hwritten ⟨congrArg Prod.fst hknown, congrArg Prod.snd hknown, rfl⟩

/-- **What happens leaves a spent record exactly if it is a refresh that fails and tells the end of its
own subscription.** -/
theorem spent_iff_orphans (hs : s.Sound) (hI : s.Tidy) (op : Op) :
    ¬(s.step op).Tidy ↔ op.Orphans s := by
  by_cases hsent : op.RefreshSent
  · refine iff_of_false (not_not.mpr ?_) ?_
    · exact changes_invariant hs hI (fun _ _ _ htidy hchange => hchange.tidy hsent htidy)
        (step_changes hs op)
    · intro horphans
      cases op with
      | subscribe command env =>
        obtain ⟨⟨-, -, -, hrefresh⟩, r, -, -, hfailed, -⟩ := horphans
        exact hfailed (hsent command env rfl hrefresh)
      | signal | clientRefresh | close => exact horphans
  obtain ⟨command, env, rfl, hrefresh, hfailed⟩ : ∃ command env, op = .subscribe command env ∧
      command.callId ≠ [] ∧ env.start.status ≠ .success := by
    simpa [Op.RefreshSent] using hsent
  show ¬(sendSubscribeOnOwner s command env).2.Tidy ↔ _
  unfold sendSubscribeOnOwner
  by_cases hbad : command.operationId = 0 ∨ command.event = [] ∨ env.ready = false
  · rw [if_pos hbad]
    refine iff_of_false (not_not.mpr hI) ?_
    rintro ⟨⟨hid, hevent, hready, -⟩, -⟩
    rcases hbad with h | h | h
    · exact hid h
    · exact hevent h
    · exact Bool.false_ne_true (h.symm.trans hready)
  rw [if_neg hbad, if_pos hrefresh]
  simp only [not_or] at hbad
  obtain ⟨hid, hevent, hready⟩ := hbad
  cases hprepare : prepareRefresh s command env with
  | error status =>
    refine iff_of_false (not_not.mpr hI) ?_
    rintro ⟨-, r, hok, -⟩
    rw [hprepare] at hok
    cases hok
  | ok r' =>
    obtain ⟨r, hr, hidle, hr'⟩ := prepareRefresh_ok hprepare
    have hserial : r'.serial = r.serial := by rw [hr']
    obtain ⟨pre, post, hcalls⟩ := List.append_of_mem hr
    have hwrite : s.write r'.serial (fun _ => r') = s.splice pre ⟨r', [], false⟩ post none := by
      rw [hserial, write_split hs hcalls]
    simp only [startSubscriptionRequest, hwrite]
    by_cases hmade : env.start.prepare r' = .success
    · -- the record takes the operation, the signals come, and the operation is cleared
      have hlive : r'.subscription ≠ none := prepareRefresh_live hprepare
      have hbusy : r'.operationId ≠ 0 := by
        rw [hr']
        exact hid
      have hbegins : Change s (.subscribe command env) s
          ((s.splice pre ⟨r', [], false⟩ post none).start r') :=
        .refreshed rfl rfl hcalls hidle (by rw [hr']) hserial (by rw [hr']) (by rw [hr'])
      have htidy : ((s.splice pre ⟨r', [], false⟩ post none).start r').Tidy := by
        intro r₁ hr₁ hspent
        change r₁ ∈ (s.splice _ _ _ none).subscriptions at hr₁
        rcases mem_splice hcalls hr₁ with ⟨rfl, -⟩ | hold
        · exact hbusy hspent.idle
        · exact hI r₁ hold hspent
      have hmem : r' ∈ ((s.splice pre ⟨r', [], false⟩ post none).start r').subscriptions := by
        simp [SubscriptionRuntime.start, SubscriptionRuntime.splice]
      simp only [if_pos hmade, if_pos hfailed]
      rw [clear_spent_iff (hbegins.sound hs) htidy hmem hbusy hlive]
      constructor
      · rintro ⟨htold, hopen⟩
        exact ⟨⟨hid, hevent, by simpa using hready, hrefresh⟩, r', hprepare, hmade, hfailed, htold, hopen⟩
      · rintro ⟨-, r₁, hprepare', -, -, htold, hopen⟩
        obtain rfl := Except.ok.inj (hprepare.symm.trans hprepare')
        exact ⟨htold, hopen⟩
    · -- nothing is sent, and the record has no operation as before
      have hnot : env.start.prepare r' ≠ .success := hmade
      simp only [if_neg hmade, if_pos hnot]
      refine iff_of_false (not_not.mpr ?_) ?_
      · intro r₁ hr₁ hspent
        obtain ⟨r₂, hr₂, rfl⟩ := List.mem_map.mp hr₁
        rcases mem_splice hcalls hr₂ with ⟨rfl, -⟩ | hold
        · rw [if_pos rfl] at hspent
          refine hI r hr ⟨?_, ?_, hidle⟩
          · have hover := hspent.terminated
            rwa [hr'] at hover
          · have htold := hspent.told
            rwa [hr'] at htold
        · split_ifs at hspent with hmine
          · obtain rfl := eq_of_serial_eq hs hr hold (hserial.symm.trans hmine.symm)
            exact hI r hr ⟨hspent.terminated, hspent.told, hidle⟩
          · exact hI r₂ hold hspent
      · rintro ⟨-, r₁, hprepare', hmade', -⟩
        obtain rfl := Except.ok.inj (hprepare.symm.trans hprepare')
        exact hmade hmade'

end orphan

/-! ## Runs -/

/-- **Records are reclaimed exactly if no refresh orphans one.** At no time of the run is there a spent
record in the list exactly if nothing that happens in it leaves one. -/
theorem tidy_iff (ops : List Op) : (∀ earlier, earlier <+: ops → (runSubscriptions earlier).Tidy) ↔
      Throughout (fun s op => ¬op.Orphans s) ops := by
  constructor
  · rintro htidy earlier op later rfl horphans
    have hbefore := htidy earlier (List.prefix_append _ _)
    have hafter := htidy (earlier ++ [op]) ⟨later, by rw [List.append_assoc]; rfl⟩
    rw [runSubscriptions_append] at hafter
    exact (spent_iff_orphans (runSubscriptions_sound earlier) hbefore op).mpr horphans hafter
  · intro hops earlier hearlier
    have hthroughout : Throughout (fun s op => ¬op.Orphans s) earlier := by
      obtain ⟨rest, rfl⟩ := hearlier
      rintro pre op post rfl
      exact hops pre op (post ++ rest) (by rw [List.append_assoc]; rfl)
    clear hearlier
    induction earlier using List.reverseRecOn with
    | nil => exact fun _ hr => absurd hr List.not_mem_nil
    | append_singleton earlier op ih =>
      obtain ⟨hbefore, hop⟩ := throughout_append hthroughout
      rw [runSubscriptions_append]
      exact not_not.mp fun hspent =>
        hop ((spent_iff_orphans (runSubscriptions_sound earlier) (ih hbefore) op).mp hspent)

/-! ## Calls and subscriptions -/

/-- **Records are reclaimed in every order of callbacks, with one final response per operation.** Calls
and subscriptions share nothing but the operation ids and the events. The record of a call is reclaimed if
every BYE was sent; the records of subscriptions are reclaimed at all times of a run exactly if no refresh
that fails tells the end of its own subscription. -/
theorem records_reclaimed (calls : List Calls.Op) (subscriptions : List Op) :
    ((calls.flatMap Calls.Op.operationIds ++ subscriptions.flatMap Op.operationIds).Nodup →
      ∀ id, id ≠ 0 →
        finals id ((Calls.runCalls calls).events ++ (runSubscriptions subscriptions).events) ≤ 1) ∧
    (((Calls.runCalls calls).removed ++ (Calls.runCalls calls).inviteCalls).map
      Calls.InviteCall.serial).Nodup ∧
    (((runSubscriptions subscriptions).removed ++ (runSubscriptions subscriptions).subscriptions).map
      SubscriptionCall.serial).Nodup ∧
    ((∀ op ∈ calls, op.ByeSent) → ∀ r ∈ (Calls.runCalls calls).inviteCalls, ¬r.Spent) ∧
    ((∀ earlier, earlier <+: subscriptions → ∀ r ∈ (runSubscriptions earlier).subscriptions, ¬r.Spent) ↔
      Throughout (fun s op => ¬op.Orphans s) subscriptions) := by
  refine ⟨?_, (Calls.runCalls_sound calls).once, (runSubscriptions_sound subscriptions).once,
    Calls.no_spent_call calls, tidy_iff subscriptions⟩
  intro hnodup id hid
  have hcalls := Calls.finals_le calls hid
  have hsubscriptions := subscription_finals_le subscriptions hid
  have hcount := List.nodup_iff_count_le_one.mp hnodup id
  rw [List.count_append] at hcount
  rw [finals_append]
  omega

/-- An answered SUBSCRIBE of operation 1, and a refresh by operation 2 that PJSIP does not send. While it
tries to, the subscription ends; the transaction of the refresh is reported after that. -/
def endedRun : List Op :=
  [.subscribe (plainSubscribe 1 []) plainSubscribeEnv,
    .signal (.tsx 0 0 ⟨.uac, subscribeMethod, 200, .completed⟩ none),
    .subscribe (plainSubscribe 2 [97]) { plainSubscribeEnv with
      start := ⟨.success, true, .other 70001, [.enters 0 .terminated, .stateChanged 0]⟩ },
    .signal (.tsx 0 1 ⟨.uac, subscribeMethod, 408, .terminated⟩ none)]

/-- No operation is under way and the end of the subscription was told, yet its record is still there. -/
theorem failed_refresh_keeps_record : (endedRun.flatMap Op.operationIds).Nodup ∧
      ∃ r ∈ (runSubscriptions endedRun).subscriptions, r.Spent := by
  decide

end GmvPjsip.Subscriptions
