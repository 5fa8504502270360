import GmvPjsip.Subscriptions.Changes

/-!
# Which operation a response is reported to

A transaction event of a subscription is reported to the operation whose id is stored in the record at
that moment. Several SUBSCRIBE transactions of a subscription can be alive at once: PJSIP reports a
transaction once more when it terminates, some time after its final response.

* `Stored`: an operation under way started the latest request of its subscription; a refresh of PJSIP's
  own never comes in between.
* `Late`: an event of an earlier request, while an operation is under way.
* `responses_attributed`: without late events every response is reported to the operation that started
  its transaction.
* `late_event_misattributed`: with one, an operation is reported as answered before its request is.
-/

namespace GmvPjsip.Subscriptions

open GmvPjsip.Auth hiding RxData
open GmvPjsip.Commands
open GmvPjsip.Calls (CallEvent RxData Transaction eunsuptransport firstFailure setSubscriptionBody
  transactionEvent)

/-! ## Definitions -/

/-- The latest request of a subscription. -/
def SubscriptionRuntime.latest (s : SubscriptionRuntime) (subscription : ℕ) : Option Start :=
  (s.started.filter fun start => start.subscription = subscription).getLast?

/-- A response to a SUBSCRIBE that is not the latest of its subscription, while an operation is under
way. -/
def Late (s : SubscriptionRuntime) : Signal → Prop
  | .tsx subscription request tx _ => IsSubscribe tx ∧ 100 ≤ tx.statusCode ∧
      (∃ r ∈ s.subscriptions, r.serial = subscription ∧ r.subscription ≠ none ∧ r.operationId ≠ 0) ∧
      ∀ start ∈ s.latest subscription, start.request ≠ request
  | _ => False

instance (s : SubscriptionRuntime) : DecidablePred (Late s)
  | .tsx _ _ _ _ => inferInstanceAs (Decidable (_ ∧ _ ∧ _ ∧ _))
  | .enters _ _ | .stateChanged _ | .notify _ _ => inferInstanceAs (Decidable False)

/-- None of the signals is late. -/
def SubscriptionRuntime.PunctualSignals (s : SubscriptionRuntime) : List Signal → Prop
  | [] => True
  | σ :: rest => ¬Late s σ ∧ (s.signal σ).PunctualSignals rest

/-- The runtime in which PJSIP starts to give signals, and the signals. -/
def Op.delivers (s : SubscriptionRuntime) : Op → SubscriptionRuntime × List Signal
  | .signal σ => (s, [σ])
  | .subscribe command env =>
    if command.operationId = 0 ∨ command.event = [] ∨ env.ready = false then (s, [])
    else if command.callId ≠ [] then
      match prepareRefresh s command env with
      | .error _ => (s, [])
      | .ok r =>
        if env.start.prepare r = .success then
          ((s.write r.serial fun _ => r).start r, env.start.during)
        else (s, [])
    else
      match prepareSubscribe s command env with
      | .error _ => (s, [])
      | .ok r =>
        if env.start.prepare r = .success then ((s.push r).start r, env.start.during) else (s, [])
  | .clientRefresh subscription env =>
    match s.subscriptionFromEvsub subscription with
    | none => (s, [])
    | some call =>
      if call.operationId = 0 ∧ env.prepare call = .success then (s.start call, env.during)
      else (s, [])
  | .close _ env => if env.transportFound then (s, env.during) else (s, [])

/-- None of the signals that PJSIP gives in the course of what happens is late. -/
def Punctual (s : SubscriptionRuntime) (op : Op) : Prop :=
  (op.delivers s).1.PunctualSignals (op.delivers s).2

/-- Every operation under way started the latest request of its subscription. -/
def Stored (s : SubscriptionRuntime) : Prop :=
  ∀ r ∈ s.subscriptions, r.operationId ≠ 0 →
    ∃ start, s.latest r.serial = some start ∧ start.operationId = r.operationId

/-- Every response was reported to the operation that started its request. -/
def Attributed (ops : List Op) (s : SubscriptionRuntime) : Prop :=
  ∀ x ∈ s.reports, ∃ start ∈ s.started, start.request = x.1 ∧ start.operationId = x.2.operationId ∧
    start.operationId ≠ 0 ∧ ∃ op ∈ ops, ∃ tx rdata,
      .tsx start.subscription x.1 tx rdata ∈ op.signals ∧ x.2.statusCode = tx.statusCode

/-! ## The latest request -/

variable {r : SubscriptionCall} {op : Op} {s' : SubscriptionRuntime}

section stored

variable {s₀ s s' : SubscriptionRuntime} {op : Op}

/-- A new request is the latest of its record. -/
theorem latest_start_self (s : SubscriptionRuntime) (r : SubscriptionCall) :
    (s.start r).latest r.serial = some ⟨r.serial, s.requests, r.operationId⟩ := by
  simp [SubscriptionRuntime.latest, SubscriptionRuntime.start]

/-- It is not of another record. -/
theorem latest_start_ne (s : SubscriptionRuntime) {serial : ℕ}
    (h : r.serial ≠ serial) : (s.start r).latest serial = s.latest serial := by
  simp [SubscriptionRuntime.latest, SubscriptionRuntime.start, h]

/-- A reaction to a signal keeps the operation of a record or ends it. -/
theorem Touch.operationId {request : Option ℕ} {q : Reaction}
    (htouch : Touch op r request q) : q.call.operationId = r.operationId ∨ q.call.operationId = 0 := by
  cases htouch with
  | stateChanged =>
    unfold onState
    split_ifs <;> exact Or.inl rfl
  | tsx _ _ hreact =>
    cases hreact with
    | ignored | progress => exact Or.inl rfl
    | answered | answeredLast => exact Or.inr rfl
  | notify => exact Or.inl (by rw [(onRxNotify_call _ r).1])
  | refreshFailed => exact Or.inr rfl
  | enters | replaced | abandoned => exact Or.inl rfl

/-- A change stores what it starts. -/
theorem Change.stored (hs : s.Sound) (hI : Stored s) (hchange : Change s₀ op s s') : Stored s' := by
  cases hchange with
  | same | refused | fault => exact hI
  | touched hcalls htouch =>
    intro r' hr' hbusy
    rcases mem_splice hcalls hr' with ⟨rfl, -⟩ | hold
    · rcases htouch.operationId with hid | hid
      · rw [hid] at hbusy
        obtain ⟨start, hlatest, hstart⟩ := hI _ (by simp [hcalls]) hbusy
        refine ⟨start, ?_, hstart.trans hid.symm⟩
        rw [htouch.serial]
        exact hlatest
      · exact absurd hid hbusy
    · exact hI r' hold hbusy
  | @refreshed command env pre post r r₁ hop hs₀ hcalls hidle hid hserial =>
    intro r' hr' hbusy
    have hstands : (s.splice pre ⟨r₁, [], false⟩ post none).subscriptions = pre ++ r₁ :: post := by
      simp [SubscriptionRuntime.splice]
    change r' ∈ (s.splice pre ⟨r₁, [], false⟩ post none).subscriptions at hr'
    by_cases hown : r' = r₁
    · subst hown
      exact ⟨_, latest_start_self _ r', rfl⟩
    · have hne : r₁.serial ≠ r'.serial := fun heq =>
        hown (eq_of_serial_eq (sound_splice hs hcalls (q := ⟨r₁, [], false⟩) hserial none) hr'
          (by simp [hstands]) heq.symm)
      have hold : r' ∈ s.subscriptions := by
        rw [hstands, List.mem_append, List.mem_cons] at hr'
        rw [hcalls, List.mem_append, List.mem_cons]
        tauto
      obtain ⟨start, hlatest, hstart⟩ := hI r' hold hbusy
      refine ⟨start, ?_, hstart⟩
      rw [latest_start_ne _ hne]
      exact hlatest
  | @subscribed command env r hop hs₀ hid hserial =>
    intro r' hr' hbusy
    rcases List.mem_cons.mp hr' with rfl | hold
    · exact ⟨_, latest_start_self _ r', rfl⟩
    · have hne : r.serial ≠ r'.serial := by
        have hlt := hs.fresh r'.serial (List.mem_map_of_mem (List.mem_append_right _ hold))
        omega
      obtain ⟨start, hlatest, hstart⟩ := hI r' hold hbusy
      refine ⟨start, ?_, hstart⟩
      rw [latest_start_ne _ hne]
      exact hlatest
  | @automatic r hmem hidle =>
    intro r' hr' hbusy
    have hne : r.serial ≠ r'.serial := fun heq => hbusy (eq_of_serial_eq hs hmem hr' heq ▸ hidle)
    obtain ⟨start, hlatest, hstart⟩ := hI r' hr' hbusy
    refine ⟨start, ?_, hstart⟩
    rw [latest_start_ne _ hne]
    exact hlatest
  | swept => exact fun r' hr' => hI r' (List.mem_filter.mp hr').1

end stored

/-! ## Signals -/

section signals

variable {s : SubscriptionRuntime} {ops : List Op} {op : Op}

/-- A signal starts no request. -/
theorem signal_started (s : SubscriptionRuntime) (σ : Signal) : (s.signal σ).started = s.started := by
  have hreact : ∀ (subscription : ℕ) (request : Option ℕ) (f : SubscriptionCall → Reaction),
      (s.react subscription request f).started = s.started := by
    intro subscription request f
    unfold SubscriptionRuntime.react
    cases s.subscriptionFromEvsub subscription with
    | none => rfl
    | some call =>
      simp only
      split_ifs <;> rfl
  cases σ <;> exact hreact _ _ _

/-- Nor do several. -/
theorem signals_started (s : SubscriptionRuntime) (σs : List Signal) :
    (s.signals σs).started = s.started := by
  induction σs generalizing s with
  | nil => rfl
  | cons σ rest ih => exact (ih (s.signal σ)).trans (signal_started s σ)

/-- A signal that is not late reports a response to the operation that started its request. -/
theorem signal_attributed (hs : s.Sound) (hI : Stored s) (hattributed : Attributed ops s) {σ : Signal}
    (hop : op ∈ ops) (hσ : σ ∈ op.signals) (hpunctual : ¬Late s σ) : Attributed ops (s.signal σ) := by
  -- a signal without a request reports nothing
  have hother : ∀ (subscription : ℕ) (f : SubscriptionCall → Reaction),
      Attributed ops (s.react subscription none f) := by
    intro subscription f x hx
    unfold SubscriptionRuntime.react at hx ⊢
    cases hcall : s.subscriptionFromEvsub subscription with
    | none =>
      rw [hcall] at hx
      exact hattributed x hx
    | some call =>
      rw [hcall] at hx
      simp only [Option.toList_none, List.flatMap_nil, List.append_nil] at hx ⊢
      split_ifs at hx ⊢ <;> exact hattributed x hx
  cases σ with
  | enters subscription => exact hother subscription _
  | stateChanged subscription => exact hother subscription _
  | notify subscription => exact hother subscription _
  | tsx subscription request tx rdata =>
    show Attributed ops (s.react subscription (some request) (onTsxState tx rdata))
    rcases react_split hs (onTsxState_serial tx rdata) subscription (some request) with
      ⟨-, hsame⟩ | ⟨pre, r, post, hcalls, rfl, hlive, heq⟩
    · rw [hsame]
      exact hattributed
    rw [heq]
    intro x hx
    simp only [SubscriptionRuntime.splice, Option.toList_some, List.flatMap_cons, List.flatMap_nil,
      List.append_nil, List.mem_append, List.mem_map] at hx
    rcases hx with hold | ⟨e, he, rfl⟩
    · exact hattributed x hold
    -- what is new is a response of the stored operation, which started the latest request
    have hbusy : r.operationId ≠ 0 ∧ IsSubscribe tx ∧ e ∈ transactionEvent tx rdata r.operationId := by
      have hreact := onTsxState_spec tx rdata r
      generalize onTsxState tx rdata r = q at hreact he
      cases hreact with
      | ignored => cases he
      | progress hkind hbusy | answered hkind hbusy | answeredLast hkind hbusy => exact ⟨hbusy, hkind, he⟩
    obtain ⟨hbusy, hkind, hevent⟩ := hbusy
    have hmem : r ∈ s.subscriptions := by simp [hcalls]
    obtain ⟨start, hlatest, hid⟩ := hI r hmem hbusy
    have hin := List.mem_of_getLast? hlatest
    obtain ⟨hstarted, hsubscription⟩ := List.mem_filter.mp hin
    have hown : start.subscription = r.serial := of_decide_eq_true hsubscription
    unfold transactionEvent at hevent
    by_cases hquiet : r.operationId = 0 ∨ tx.statusCode < 100
    · rw [if_pos hquiet] at hevent
      cases hevent
    rw [if_neg hquiet] at hevent
    obtain rfl := List.mem_singleton.mp hevent
    have hrequest : start.request = request := by
      by_contra hne
      refine hpunctual ⟨hkind, by omega, ⟨r, hmem, rfl, hlive, hbusy⟩, ?_⟩
      intro start' hlatest'
      obtain rfl := Option.some.inj (hlatest.symm.trans hlatest')
      exact hne
    exact ⟨start, hstarted, hrequest, hid, hid ▸ hbusy, op, hop, tx, rdata, hown ▸ hσ, rfl⟩

/-- Punctual signals are attributed rightly. -/
theorem signals_attributed {σs : List Signal} (hs : s.Sound) (hI : Stored s)
    (hattributed : Attributed ops s) (hop : op ∈ ops) (hσs : ∀ σ ∈ σs, σ ∈ op.signals)
    (hpunctual : s.PunctualSignals σs) : Attributed ops (s.signals σs) := by
  induction σs generalizing s with
  | nil => exact hattributed
  | cons σ rest ih =>
    have hσ := hσs σ List.mem_cons_self
    have hchange : Change s op s (s.signal σ) := signal_change hs hσ
    exact ih (hchange.sound hs) (hchange.stored hs hI)
      (signal_attributed hs hI hattributed hop hσ hpunctual.1)
      (fun τ hτ => hσs τ (List.mem_cons_of_mem σ hτ)) hpunctual.2

end signals

/-! ## Runs -/

section runs

variable {s : SubscriptionRuntime}

/-- PJSIP gives its signals in a runtime that is one change away from `s` and has reported nothing, and
after the signals nothing more is reported until `s'`. -/
structure Delivery (s : SubscriptionRuntime) (op : Op) (s' : SubscriptionRuntime)
    (given : SubscriptionRuntime × List Signal) : Prop where
  change : Change s op s given.1
  reports : given.1.reports = s.reports
  started : s.started ⊆ given.1.started
  signals : ∀ σ ∈ given.2, σ ∈ op.signals
  finalReports : s'.reports = (given.1.signals given.2).reports
  finalStarted : s'.started = given.1.started

/-- Nothing is delivered. -/
theorem Delivery.none (hreports : s'.reports = s.reports)
    (hstarted : s'.started = s.started) : Delivery s op s' (s, []) :=
  ⟨.same, rfl, fun _ h => h, nofun, hreports, hstarted⟩

/-- What sending a SUBSCRIBE delivers. -/
theorem subscribe_delivery (hs : s.Sound) (command : SubscribeCommand) (env : SubscribeEnv) :
    Delivery s (.subscribe command env) (sendSubscribeOnOwner s command env).2
      ((Op.subscribe command env).delivers s) := by
  simp only [Op.delivers, sendSubscribeOnOwner]
  by_cases hbad : command.operationId = 0 ∨ command.event = [] ∨ env.ready = false
  · simp only [if_pos hbad]
    exact .none rfl rfl
  simp only [if_neg hbad]
  by_cases hrefresh : command.callId ≠ []
  · simp only [if_pos hrefresh]
    cases hprepare : prepareRefresh s command env with
    | error status => exact .none rfl rfl
    | ok r' =>
      simp only [startSubscriptionRequest]
      by_cases hmade : env.start.prepare r' = .success
      · obtain ⟨r, hr, hidle, hr'⟩ := prepareRefresh_ok hprepare
        have hserial : r'.serial = r.serial := by rw [hr']
        obtain ⟨pre, post, hcalls⟩ := List.append_of_mem hr
        have hbegins : Change s (.subscribe command env) s
            ((s.splice pre ⟨r', [], false⟩ post none).start r') :=
          .refreshed rfl rfl hcalls hidle (by rw [hr']) hserial (by rw [hr']) (by rw [hr'])
        have hwrite : s.write r'.serial (fun _ => r') = s.splice pre ⟨r', [], false⟩ post none := by
          rw [hserial, write_split hs hcalls]
        simp only [if_pos hmade]
        refine ⟨hwrite ▸ hbegins, rfl, List.subset_append_left _ _, fun _ h => h, ?_, ?_⟩
        · split_ifs <;> rfl
        · split_ifs <;> exact signals_started _ _
      · have hfailed : env.start.prepare r' ≠ .success := hmade
        simp only [if_neg hmade, if_pos hfailed]
        exact .none rfl rfl
  · simp only [if_neg hrefresh]
    cases hprepare : prepareSubscribe s command env with
    | error status => exact .none rfl rfl
    | ok r =>
      simp only [startSubscriptionRequest]
      by_cases hmade : env.start.prepare r = .success
      · obtain ⟨hserial, hid, hstate⟩ := prepareSubscribe_ok hprepare
        simp only [if_pos hmade]
        refine ⟨.subscribed rfl rfl hid hserial hstate, rfl, List.subset_append_left _ _,
          fun _ h => h, ?_, ?_⟩
        · split_ifs <;> rfl
        · split_ifs <;> exact signals_started _ _
      · have hfailed : env.start.prepare r ≠ .success := hmade
        simp only [if_neg hmade, if_pos hfailed]
        exact .none rfl rfl

/-- What a refresh delivers. -/
theorem clientRefresh_delivery (s : SubscriptionRuntime) (subscription : ℕ) (env : StartEnv) :
    Delivery s (.clientRefresh subscription env) (onClientRefresh s subscription env)
      ((Op.clientRefresh subscription env).delivers s) := by
  simp only [Op.delivers, onClientRefresh]
  cases hcall : s.subscriptionFromEvsub subscription with
  | none => exact .none rfl rfl
  | some call =>
    simp only [startSubscriptionRequest]
    by_cases hbusy : call.operationId ≠ 0
    · have hnot : ¬(call.operationId = 0 ∧ env.prepare call = .success) := fun h => hbusy h.1
      simp only [if_pos hbusy, if_neg hnot]
      exact .none rfl rfl
    have hidle : call.operationId = 0 := not_not.mp hbusy
    by_cases hmade : env.prepare call = .success
    · simp only [if_neg hbusy, if_pos hmade, if_pos (And.intro hidle hmade)]
      refine ⟨.automatic (List.mem_of_find?_eq_some hcall) hidle, rfl, List.subset_append_left _ _,
        fun _ h => h, ?_, ?_⟩
      · split_ifs <;> rfl
      · split_ifs <;> exact signals_started _ _
    · have hnot : ¬(call.operationId = 0 ∧ env.prepare call = .success) := fun h => hmade h.2
      simp only [if_neg hbusy, if_neg hmade, if_neg hnot]
      refine .none ?_ ?_
      · split_ifs <;> rfl
      · split_ifs <;> rfl

/-- **Every operation delivers what is said.** -/
theorem delivers_spec (hs : s.Sound) (op : Op) : Delivery s op (s.step op) (op.delivers s) := by
  cases op with
  | signal σ => exact ⟨.same, rfl, fun _ h => h, fun _ h => h, rfl, signal_started s σ⟩
  | subscribe command env => exact subscribe_delivery hs command env
  | clientRefresh subscription env => exact clientRefresh_delivery s subscription env
  | close command env =>
    show Delivery s _ (processCloseCommand s command env) _
    simp only [Op.delivers, processCloseCommand]
    by_cases hfound : env.transportFound = true
    · simp only [if_pos hfound]
      have hchanges : Changes s (.close command env) s (s.signals env.during) :=
        signals_changes hs fun _ h => h
      rw [closeAssociationCalls_eq (hchanges.sound hs)]
      exact ⟨.same, rfl, fun _ h => h, fun _ h => h, rfl, signals_started s env.during⟩
    · simp only [if_neg hfound]
      exact .none rfl rfl

/-- In every run an operation under way started the latest request of its subscription. -/
theorem runSubscriptions_stored (ops : List Op) : Stored (runSubscriptions ops) :=
  runSubscriptions_invariant (A := fun _ _ => True) (fun _ _ _ _ => trivial) nofun
    fun _ _ _ _ _ _ hs hI hchange => hchange.stored hs hI

/-- What happens without a late event keeps every response attributed. -/
theorem step_attributed {ops : List Op} (hop : op ∈ ops) (hs : s.Sound) (hI : Stored s)
    (hattributed : Attributed ops s) (hpunctual : Punctual s op) : Attributed ops (s.step op) := by
  obtain ⟨hchange, hreports, hstarted, hσs, hfinalReports, hfinalStarted⟩ := delivers_spec hs op
  have hbefore : Attributed ops (op.delivers s).1 := by
    intro x hx
    rw [hreports] at hx
    obtain ⟨start, hstart, hrest⟩ := hattributed x hx
    exact ⟨start, hstarted hstart, hrest⟩
  have hafter := signals_attributed (hchange.sound hs) (hchange.stored hs hI) hbefore hop hσs hpunctual
  intro x hx
  rw [hfinalReports] at hx
  obtain ⟨start, hstart, hrest⟩ := hafter x hx
  refine ⟨start, ?_, hrest⟩
  rw [hfinalStarted, ← signals_started]
  exact hstart

/-- Every response is reported with the request it is about. -/
def Reported (s : SubscriptionRuntime) : Prop :=
  ∀ e ∈ s.events, e.eventType = .outboundResponse → ∃ request, (request, e) ∈ s.reports

/-- Only a transaction event reports a response. -/
theorem Touch.reported {request : Option ℕ} {q : Reaction} (htouch : Touch op r request q)
    {e : CallEvent} (he : e ∈ q.events)
    (htype : e.eventType = .outboundResponse) : request.isSome = true := by
  cases htouch with
  | tsx => rfl
  | stateChanged =>
    unfold onState at he
    split_ifs at he <;> cases he
  | @notify rdata =>
    cases rdata with
    | none => cases he
    | some rx =>
      obtain rfl := List.mem_singleton.mp he
      cases htype
  | enters | replaced | refreshFailed | abandoned => cases he

/-- A change reports responses with their request. -/
theorem Change.reported {s₀ : SubscriptionRuntime} (hI : Reported s)
    (hchange : Change s₀ op s s') : Reported s' := by
  cases hchange with
  | same | refused | automatic | swept | subscribed => exact hI
  | refreshed =>
    intro e he htype
    simp only [SubscriptionRuntime.start, SubscriptionRuntime.splice, List.append_nil] at he
    obtain ⟨request, hmem⟩ := hI e he htype
    exact ⟨request, List.mem_append_left _ hmem⟩
  | @touched pre post r request q hcalls htouch =>
    intro e he htype
    rcases List.mem_append.mp he with hold | hnew
    · obtain ⟨request', hmem⟩ := hI e hold htype
      exact ⟨request', List.mem_append_left _ hmem⟩
    · obtain ⟨n, rfl⟩ := Option.isSome_iff_exists.mp (htouch.reported hnew htype)
      refine ⟨n, List.mem_append_right _ ?_⟩
      simpa using hnew
  | fault =>
    intro e he htype
    rcases List.mem_append.mp he with hold | hnew
    · exact hI e hold htype
    · obtain rfl := List.mem_singleton.mp hnew
      cases htype

/-- The requests are numbered in the order in which they start. -/
def Numbered (s : SubscriptionRuntime) : Prop :=
  s.started.map Start.request = List.range s.requests

/-- A new request has a new number. -/
theorem numbered_start (hI : Numbered s) (r : SubscriptionCall) : Numbered (s.start r) := by
  unfold Numbered SubscriptionRuntime.start
  rw [List.map_append, hI, List.range_succ]
  rfl

/-- A change numbers requests upwards. -/
theorem Change.numbered {s₀ : SubscriptionRuntime} (hI : Numbered s)
    (hchange : Change s₀ op s s') : Numbered s' := by
  cases hchange with
  | same | touched | refused | fault | swept => exact hI
  | refreshed | subscribed | automatic => exact numbered_start (by exact hI) _

/-- **Without late events, responses are attributed to their own operation.** Every response of a run
belongs to a request, no two requests have the same number, and the operation a response is reported to
is one of the application and started that request; its status is one that PJSIP gave for that
request. -/
theorem responses_attributed (ops : List Op) (hops : Throughout Punctual ops) :
    (∀ e ∈ (runSubscriptions ops).events, e.eventType = .outboundResponse →
      ∃ request, (request, e) ∈ (runSubscriptions ops).reports) ∧
    ((runSubscriptions ops).started.map Start.request).Nodup ∧
    Attributed ops (runSubscriptions ops) := by
  refine ⟨?_, ?_, ?_⟩
  · exact runSubscriptions_invariant (A := fun _ _ => True) (I := Reported) (fun _ _ _ _ => trivial)
      (fun _ he => absurd he List.not_mem_nil) fun _ _ _ _ _ _ _ hI hchange => hchange.reported hI
  · have hnumbered : Numbered (runSubscriptions ops) :=
      runSubscriptions_invariant (A := fun _ _ => True) (I := Numbered) (fun _ _ _ _ => trivial)
        rfl fun _ _ _ _ _ _ _ hI hchange => hchange.numbered hI
    rw [hnumbered]
    exact List.nodup_range
  · -- by induction on the run, for a list of which the run is a part
    have hpart : ∀ ops' : List Op, ops ⊆ ops' → Attributed ops' (runSubscriptions ops) := by
      intro ops' hsub
      induction ops using List.reverseRecOn with
      | nil => exact fun _ hx => absurd hx List.not_mem_nil
      | append_singleton ops op ih =>
        obtain ⟨hbefore, hop⟩ := throughout_append hops
        obtain ⟨hfront, hlast⟩ := List.append_subset.mp hsub
        rw [runSubscriptions_append]
        exact step_attributed (hlast List.mem_cons_self) (runSubscriptions_sound ops)
          (runSubscriptions_stored ops) (ih hbefore hfront) hop
    exact hpart ops fun _ h => h

/-! ## A late event -/

/-- A SUBSCRIBE for the event `p`; without a Call-ID it starts a subscription. -/
def plainSubscribe (operationId : ℕ) (callId : Bytes) : SubscribeCommand where
  operationId := operationId
  associationId := 1
  transport := .udp
  localCseq := 1
  targetUri := [98]
  fromUri := [99]
  contactUri := [99]
  callId := callId
  event := [112]
  expires := 60
  contentType := []
  body := []

/-- PJSIP sends the request without an event; a new dialog gets the Call-ID `a`. -/
def plainSubscribeEnv : SubscribeEnv where
  ready := true
  bodyMalloc := true
  transportFound := true
  createUac := .success
  createSubscription := .success
  setTransport := .success
  callCalloc := true
  callId := [97]
  start := ⟨.success, true, .success, []⟩

/-- A SUBSCRIBE of operation 1 that is answered, and its refresh by operation 2. -/
def refreshedRun : List Op :=
  [.subscribe (plainSubscribe 1 []) plainSubscribeEnv,
    .signal (.tsx 0 0 ⟨.uac, subscribeMethod, 200, .completed⟩ none),
    .subscribe (plainSubscribe 2 [97]) plainSubscribeEnv]

/-- A subscription that is refreshed in time. -/
theorem responses_attributed_refreshed :
    Throughout Punctual refreshedRun ∧ Attributed refreshedRun (runSubscriptions refreshedRun) ∧
      (runSubscriptions refreshedRun).reports ≠ [] := by
  have hops : Throughout Punctual refreshedRun := by
    intro before op after hops
    match before with
    | [] =>
      obtain ⟨rfl, -⟩ := List.cons.inj hops
      trivial
    | [_] =>
      obtain ⟨rfl, hrest⟩ := List.cons.inj hops
      obtain ⟨rfl, -⟩ := List.cons.inj hrest
      exact ⟨by decide, trivial⟩
    | [_, _] =>
      obtain ⟨rfl, hrest⟩ := List.cons.inj hops
      obtain ⟨rfl, hlast⟩ := List.cons.inj hrest
      obtain ⟨rfl, -⟩ := List.cons.inj hlast
      trivial
    | _ :: _ :: _ :: _ => simp [refreshedRun] at hops
  exact ⟨hops, (responses_attributed refreshedRun hops).2.2, by decide⟩

/-- The transaction of the first request terminates after the refresh was sent: its 200 is reported as
the final response of operation 2, whose own request has not been answered. -/
theorem late_event_misattributed :
    let s := runSubscriptions (refreshedRun ++
      [.signal (.tsx 0 0 ⟨.uac, subscribeMethod, 200, .terminated⟩ none)])
    s.started = [⟨0, 0, 1⟩, ⟨0, 1, 2⟩] ∧
      (s.reports.map fun x => (x.1, x.2.operationId, x.2.statusCode)) = [(0, 1, 200), (0, 2, 200)] := by
  decide

end runs

end GmvPjsip.Subscriptions
