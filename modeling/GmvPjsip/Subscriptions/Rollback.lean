import GmvPjsip.Subscriptions.Changes

/-!
# Refreshes that fail

A command that refreshes or ends a subscription writes its body, content type and expires to the record
before the request is tried, and takes nothing but the operation id back when that fails. PJSIP's own
refreshes send what the record holds.

* `Content` is what a SUBSCRIBE carries, and `nextRefresh` what the next refresh of PJSIP's own asks for.
* `Reached` says that a command comes to the update of its record.
* `failed_refresh_content`: a failing command leaves the record as it was exactly if it did not come to
  the update or repeats what the record holds. `failed_unsubscribe_is_kept` has one that does neither.
-/

namespace GmvPjsip.Subscriptions

open GmvPjsip.Auth hiding RxData
open GmvPjsip.Commands
open GmvPjsip.Calls (CallEvent RxData Transaction setSubscriptionBody)

/-- What a SUBSCRIBE carries. -/
structure Content where
  expires : ℕ
  contentType : Bytes
  body : Bytes
  deriving DecidableEq, Repr

def SubscriptionCall.content (r : SubscriptionCall) : Content := ⟨r.expires, r.contentType, r.body⟩

/-- What a command asks for. -/
def requested (command : SubscribeCommand) : Content :=
  ⟨command.expires, command.contentType, command.body⟩

/-- What `gmv_start_subscription_request` is asked to send when PJSIP wants a refresh.
Source: `shim.c`, `gmv_subscription_on_client_refresh` -/
def nextRefresh (s : SubscriptionRuntime) (subscription : ℕ) : Option Content :=
  match s.subscriptionFromEvsub subscription with
  | none => none
  | some call => if call.operationId ≠ 0 then none else some call.content

/-- A command comes to the update of the record with its Call-ID. -/
structure Reached (command : SubscribeCommand) (env : SubscribeEnv) (r : SubscriptionCall) : Prop where
  operation : command.operationId ≠ 0
  event : command.event ≠ []
  ready : env.ready = true
  live : r.subscription ≠ none
  idle : r.operationId = 0
  sameEvent : r.event = command.event
  memory : command.body = [] ∨ env.bodyMalloc = true

/-- The record as a command wants it. -/
def updated (command : SubscribeCommand) (r : SubscriptionCall) : SubscriptionCall :=
  { r with
    body := command.body
    contentType := command.contentType
    expires := command.expires
    operationId := command.operationId }

/-! ## Signals keep what a record carries -/

section signals

variable {s : SubscriptionRuntime}

theorem onState_content (r : SubscriptionCall) : (onState r).call.content = r.content := by
  unfold onState
  split_ifs <;> rfl

theorem onTsxState_content (tx : Transaction) (rdata : Option RxData) (r : SubscriptionCall) :
    (onTsxState tx rdata r).call.content = r.content := by
  have hreact := onTsxState_spec tx rdata r
  generalize onTsxState tx rdata r = q at hreact
  cases hreact <;> rfl

/-- Every record of `s'` carries what it carried in `s`. -/
def Carried (s s' : SubscriptionRuntime) : Prop :=
  ∀ r' ∈ s'.subscriptions, ∃ r ∈ s.subscriptions, r.serial = r'.serial ∧ r.content = r'.content

theorem react_carried (hs : s.Sound) {f : SubscriptionCall → Reaction}
    (hserial : ∀ r : SubscriptionCall, (f r).call.serial = r.serial)
    (hcontent : ∀ r : SubscriptionCall, (f r).call.content = r.content) (subscription : ℕ)
    (request : Option ℕ) :
    (s.react subscription request f).Sound ∧ Carried s (s.react subscription request f) := by
  rcases react_split hs hserial subscription request with
    ⟨-, hsame⟩ | ⟨pre, r, post, hcalls, -, -, hsplice⟩
  · rw [hsame]
    exact ⟨hs, fun r' hr' => ⟨r', hr', rfl, rfl⟩⟩
  · rw [hsplice]
    refine ⟨sound_splice hs hcalls (hserial r) request, fun r' hr' => ?_⟩
    rcases mem_splice hcalls hr' with ⟨rfl, -⟩ | hold
    · exact ⟨r, hcalls ▸ List.mem_append_right _ List.mem_cons_self, (hserial r).symm,
        (hcontent r).symm⟩
    · exact ⟨r', hold, rfl, rfl⟩

theorem signal_carried (hs : s.Sound) (σ : Signal) : (s.signal σ).Sound ∧ Carried s (s.signal σ) := by
  cases σ with
  | enters => exact react_carried hs (fun _ => rfl) (fun _ => rfl) _ _
  | stateChanged => exact react_carried hs onState_serial onState_content _ _
  | tsx subscription request tx rdata =>
    exact react_carried hs (onTsxState_serial tx rdata) (onTsxState_content tx rdata) _ _
  | notify subscription rdata =>
    exact react_carried hs (fun r => by rw [(onRxNotify_call rdata r).1])
      (fun r => by rw [(onRxNotify_call rdata r).1]) _ _

/-- Any number of signals keep it. -/
theorem signals_carried (hs : s.Sound) (σs : List Signal) : Carried s (s.signals σs) := by
  induction σs generalizing s with
  | nil => exact fun r' hr' => ⟨r', hr', rfl, rfl⟩
  | cons σ rest ih =>
    obtain ⟨hsound, hfirst⟩ := signal_carried hs σ
    intro r' hr'
    obtain ⟨r₁, hr₁, hserial₁, hcontent₁⟩ := ih hsound r' hr'
    obtain ⟨r, hr, hserial, hcontent⟩ := hfirst r₁ hr₁
    exact ⟨r, hr, hserial.trans hserial₁, hcontent.trans hcontent₁⟩

/-- So does a request, whatever becomes of it. -/
theorem startSubscriptionRequest_carried (hs : s.Sound) (r : SubscriptionCall) (env : StartEnv) :
    Carried s (startSubscriptionRequest s r env).2 := by
  unfold startSubscriptionRequest
  split_ifs
  · have hstart : (s.start r).Sound := ⟨hs.once, hs.fresh⟩
    exact signals_carried hstart env.during
  · exact fun r' hr' => ⟨r', hr', rfl, rfl⟩

end signals

/-! ## Commands that fail -/

section commands

variable {s : SubscriptionRuntime} {command : SubscribeCommand} {env : SubscribeEnv}
  {r : SubscriptionCall}

theorem mem_of_findSubscription (h : s.findSubscription command.callId = some r) :
    r ∈ s.subscriptions ∧ command.callId ≠ [] := by
  unfold SubscriptionRuntime.findSubscription at h
  split_ifs at h with hnil
  exact ⟨List.mem_of_find?_eq_some h, hnil⟩

/-- A command that is not to update a record changes nothing. -/
theorem send_of_not_reached (hfound : s.findSubscription command.callId = some r)
    (hreached : ¬Reached command env r) : (sendSubscribeOnOwner s command env).2 = s := by
  have hcallId := (mem_of_findSubscription hfound).2
  unfold sendSubscribeOnOwner
  by_cases hbad : command.operationId = 0 ∨ command.event = [] ∨ env.ready = false
  · rw [if_pos hbad]
  obtain ⟨hoperation, hevent, hready⟩ := by simpa only [not_or] using hbad
  rw [if_neg hbad, if_pos hcallId]
  -- each check that the update is behind gives an error
  have herror : ∃ status, prepareRefresh s command env = .error status := by
    unfold prepareRefresh
    rw [hfound]
    by_cases hlive : r.subscription = none
    · exact ⟨_, if_pos hlive⟩
    by_cases hbusy : r.operationId ≠ 0 ∨ r.event ≠ command.event
    · exact ⟨.ebusy, by simp only [if_neg hlive, if_pos hbusy]⟩
    obtain ⟨hidle, hsame⟩ := by simpa only [not_or, not_not] using hbusy
    have hmemory : command.body ≠ [] ∧ env.bodyMalloc = false := by
      by_contra hmemory
      rw [not_and_or, not_not, Bool.not_eq_false] at hmemory
      exact hreached ⟨hoperation, hevent, by simpa using hready, hlive, hidle, hsame, hmemory⟩
    exact ⟨.enomem, by
      simp only [if_neg hlive, if_neg hbusy, replaceSubscriptionBody, if_pos hmemory, Except.map]⟩
  obtain ⟨status, hstatus⟩ := herror
  rw [hstatus]

/-- A command that is to update a record does so and tries the request. -/
theorem send_of_reached (hfound : s.findSubscription command.callId = some r)
    (hreached : Reached command env r) :
    sendSubscribeOnOwner s command env =
      let (status, s') := startSubscriptionRequest (s.write r.serial fun _ => updated command r)
        (updated command r) env.start
      (status,
        if status ≠ .success then s'.write r.serial fun r => { r with operationId := 0 } else s') := by
  have hcallId := (mem_of_findSubscription hfound).2
  have hgood : ¬(command.operationId = 0 ∨ command.event = [] ∨ env.ready = false) := by
    simp [hreached.operation, hreached.event, hreached.ready]
  have hbusy : ¬(r.operationId ≠ 0 ∨ r.event ≠ command.event) := by
    simp [hreached.idle, hreached.sameEvent]
  have hmemory : ¬(command.body ≠ [] ∧ env.bodyMalloc = false) := by
    rw [not_and_or, not_not, Bool.not_eq_false]
    exact hreached.memory
  have hok : prepareRefresh s command env = .ok (updated command r) := by
    simp only [prepareRefresh, hfound, if_neg hreached.live, if_neg hbusy, replaceSubscriptionBody,
      if_neg hmemory, Except.map, updated]
  rw [sendSubscribeOnOwner, if_neg hgood, if_pos hcallId, hok]
  rfl

/-- What the record holds once a command has failed behind the update. -/
theorem failed_of_reached (hs : s.Sound) (hfound : s.findSubscription command.callId = some r)
    (hreached : Reached command env r) (herror : (sendSubscribeOnOwner s command env).1 ≠ .success)
    {r' : SubscriptionCall} (hr' : r' ∈ (sendSubscribeOnOwner s command env).2.subscriptions)
    (hserial : r'.serial = r.serial) : r'.operationId = 0 ∧ r'.content = requested command := by
  rw [send_of_reached hfound hreached] at herror hr'
  simp only at herror hr'
  rw [if_pos herror, SubscriptionRuntime.write, List.mem_map] at hr'
  obtain ⟨r₂, hr₂, rfl⟩ := hr'
  -- the record was written to, tried and written to again
  have hserial₂ : r₂.serial = r.serial := by
    split_ifs at hserial <;> exact hserial
  rw [if_pos hserial₂]
  refine ⟨rfl, ?_⟩
  obtain ⟨pre, post, hcalls⟩ := List.append_of_mem (mem_of_findSubscription hfound).1
  have hwritten : (s.write r.serial fun _ => updated command r).Sound := by
    rw [write_split hs hcalls]
    exact sound_splice hs hcalls rfl none
  obtain ⟨r₁, hr₁, hserial₁, hcontent⟩ :=
    startSubscriptionRequest_carried hwritten (updated command r) env.start r₂ hr₂
  rw [SubscriptionRuntime.write, List.mem_map] at hr₁
  obtain ⟨r₀, -, rfl⟩ := hr₁
  have hserial₀ : r₀.serial = r.serial := by
    split_ifs at hserial₁ with hsame
    · exact hsame
    · exact hserial₁.trans hserial₂
  rw [if_pos hserial₀] at hcontent
  exact hcontent.symm

/-- What the next refresh asks for is what an idle record holds. -/
theorem nextRefresh_eq_some {subscription : ℕ} {content : Content}
    (h : nextRefresh s subscription = some content) :
    ∃ r ∈ s.subscriptions, r.serial = subscription ∧ r.content = content := by
  unfold nextRefresh at h
  split at h
  · cases h
  · rename_i call hcall
    have hmatch := List.find?_some hcall
    rw [Bool.and_eq_true, decide_eq_true_eq] at hmatch
    split_ifs at h
    exact ⟨call, List.mem_of_find?_eq_some hcall, hmatch.1, Option.some.inj h⟩

end commands

/-- PJSIP's refreshes send what `nextRefresh` says: without anything to send nothing happens, and with it
the request is that of a record which holds it. -/
theorem onClientRefresh_nextRefresh (s : SubscriptionRuntime) (subscription : ℕ) (env : StartEnv) :
    (nextRefresh s subscription = none ∧ onClientRefresh s subscription env = s) ∨
      ∃ call content, nextRefresh s subscription = some content ∧ call.content = content ∧
        call.serial = subscription ∧
        (onClientRefresh s subscription env).started =
          (startSubscriptionRequest s call env).2.started := by
  unfold nextRefresh onClientRefresh
  cases hcall : s.subscriptionFromEvsub subscription with
  | none => exact Or.inl ⟨rfl, rfl⟩
  | some call =>
    have hmatch := List.find?_some hcall
    rw [Bool.and_eq_true, decide_eq_true_eq] at hmatch
    by_cases hbusy : call.operationId ≠ 0
    · exact Or.inl ⟨if_pos hbusy, if_pos hbusy⟩
    · refine Or.inr ⟨call, call.content, if_neg hbusy, rfl, hmatch.1, ?_⟩
      simp only [if_neg hbusy]
      split_ifs <;> rfl

/-- **A failing command leaves the record as it was exactly if it did not come to the update, or repeats
what the record holds.** In every run, for every command with a Call-ID: without a record nothing
changes. With one, an error leaves the operation id as it was; body, content type and expires, and what
the next refresh of PJSIP's own asks for, are as before in these two cases and in no other. -/
theorem failed_refresh_content (ops : List Op) (command : SubscribeCommand) (env : SubscribeEnv)
    (hcallId : command.callId ≠ [])
    (herror : (sendSubscribeOnOwner (runSubscriptions ops) command env).1 ≠ .success) :
    ((runSubscriptions ops).findSubscription command.callId = none →
      (sendSubscribeOnOwner (runSubscriptions ops) command env).2 = runSubscriptions ops) ∧
    ∀ r, (runSubscriptions ops).findSubscription command.callId = some r →
      let after := (sendSubscribeOnOwner (runSubscriptions ops) command env).2
      let untouched := ¬Reached command env r ∨ requested command = r.content
      (∀ r' ∈ after.subscriptions, r'.serial = r.serial →
        r'.operationId = r.operationId ∧ (r'.content = r.content ↔ untouched)) ∧
      ∀ content, nextRefresh after r.serial = some content → (content = r.content ↔ untouched) := by
  have hs := runSubscriptions_sound ops
  generalize runSubscriptions ops = s at hs herror
  constructor
  · intro hnone
    have hprepare : prepareRefresh s command env = .error .enotfound := by
      rw [prepareRefresh, hnone]
    unfold sendSubscribeOnOwner
    by_cases hbad : command.operationId = 0 ∨ command.event = [] ∨ env.ready = false
    · rw [if_pos hbad]
    · rw [if_neg hbad, if_pos hcallId, hprepare]
  · intro r hfound after untouched
    have hrecord : ∀ r' ∈ after.subscriptions, r'.serial = r.serial →
        r'.operationId = r.operationId ∧ (r'.content = r.content ↔ untouched) := by
      intro r' hr' hserial
      by_cases hreached : Reached command env r
      · obtain ⟨hidle, hcontent⟩ := failed_of_reached hs hfound hreached herror hr' hserial
        refine ⟨hidle.trans hreached.idle.symm, ?_⟩
        rw [hcontent]
        exact ⟨Or.inr, fun h => h.resolve_left (not_not.mpr hreached)⟩
      · have hsame : after = s := send_of_not_reached hfound hreached
        rw [hsame] at hr'
        obtain rfl := eq_of_serial_eq hs hr' (mem_of_findSubscription hfound).1 hserial
        exact ⟨rfl, fun _ => Or.inl hreached, fun _ => rfl⟩
    refine ⟨hrecord, fun content hnext => ?_⟩
    obtain ⟨r', hr', hserial, rfl⟩ := nextRefresh_eq_some hnext
    exact (hrecord r' hr' hserial).2

/-- A subscription for 3600 seconds is answered 200. -/
def establishing : List Op :=
  [.subscribe ⟨1, 0, .udp, 1, [1], [1], [1], [], [1], 3600, [], []⟩
      ⟨true, true, true, .success, .success, .success, true, [9], ⟨.success, true, .success, []⟩⟩,
    .signal (.tsx 0 0 ⟨.uac, subscribeMethod, 200, .completed⟩ none)]

/-- A command for that subscription. -/
def unsubscribe (expires : ℕ) : SubscribeCommand :=
  ⟨2, 0, .udp, 1, [], [], [], [9], [1], expires, [], []⟩

/-- `pjsip_evsub_initiate` gives a status, and nothing else fails. -/
def failing (initiate : PjStatus) : SubscribeEnv :=
  ⟨true, true, true, .success, .success, .success, true, [], ⟨initiate, true, .success, []⟩⟩

/-- A refresh fails that asks for what the record holds. -/
theorem failed_refresh_repeated : ∃ r, (runSubscriptions establishing).findSubscription [9] = some r ∧
      ∀ content, nextRefresh (sendSubscribeOnOwner (runSubscriptions establishing) (unsubscribe 3600)
        (failing .enomem)).2 r.serial = some content → content = r.content :=
  ⟨⟨0, 0, .udp, 0, 3600, [9], [1], [], [], some .null, false⟩, by decide +kernel, fun content hnext =>
    (((failed_refresh_content establishing (unsubscribe 3600) (failing .enomem) (by decide)
      (by decide +kernel)).2 _ (by decide +kernel)).2 content hnext).mpr (Or.inr (by decide))⟩

/-- An unsubscribe fails, as PJSIP has no memory for the request: expires 0 stays, and the next refresh,
which would have asked for 3600 seconds, ends the subscription. -/
theorem failed_unsubscribe_is_kept :
    let before := runSubscriptions establishing
    let result := sendSubscribeOnOwner before (unsubscribe 0) (failing .enomem)
    result.1 = .enomem ∧ nextRefresh before 0 = some ⟨3600, [], []⟩ ∧
      nextRefresh result.2 0 = some ⟨0, [], []⟩ := by
  decide +kernel

end GmvPjsip.Subscriptions
