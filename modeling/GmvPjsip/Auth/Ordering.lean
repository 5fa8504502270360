import GmvPjsip.Auth.Resolution
import GmvPjsip.Auth.Soundness

/-!
# The orders are the last accepted REGISTERs

What `register_orders` is for, and that it does it over whole runs.

* `lastAccepted` reads off a history which REGISTER of each device was last answered 200, since the
  runtime was last stopped. This is the map that the list stands for.
* `Answers`: how a completion answers a REGISTER, in terms of that map. A REGISTER whose credentials
  call for 200 is answered 500 if it was overtaken, and only a 200 that was sent changes the map.
* `Ordered` is the invariant that connects the list with the map. It needs that every REGISTER has a
  Call-ID that fits a record and that no allocation fails (`Orderly`).
* `orders_last_accepted`: the same for every run without source calls. `orders_nul_callId` is a run in
  which a Call-ID with a NUL does not fit.
-/

namespace GmvPjsip.Auth

open GmvPjsip.Lib

/-! ## The map -/

/-- The action is a response 200 that was sent. -/
def Action.sentOk : Action → Bool
  | .respond _ code _ _ status => decide (code = 200 ∧ status = .success)
  | _ => false

/-- The device and the REGISTER that a record answers 200. -/
def Record.acceptedOrder (pj : Pjsip) : Record → Option (Bytes × SipMsg)
  | .left p _ actions =>
    if actions.any Action.sentOk then (pj.parseRdata p.packet).map fun msg => (p.deviceId, msg)
    else none
  | _ => none

/-- The Call-ID and the CSeq of the last REGISTER of each device that was answered 200, unless it
expired at once, since the runtime was last stopped. -/
def lastAccepted (pj : Pjsip) : List Record → OrderMap
  | [] => fun _ => none
  | .stopped _ :: _ => fun _ => none
  | r :: older =>
    match r.acceptedOrder pj with
    | some (deviceId, msg) => (lastAccepted pj older).accept deviceId msg
    | none => lastAccepted pj older

/-- The map holds the Call-ID of a REGISTER with a larger CSeq. -/
def OrderMap.Overtaken (m : OrderMap) (deviceId : Bytes) (msg : SipMsg) : Prop :=
  ∃ callId cseq last, orderKey msg = some (callId, cseq) ∧ m deviceId = some (callId, last) ∧
    cseq < last

/-- How a completion whose credentials call for `code` answers a REGISTER, given what happened
before. -/
def Answers (pj : Pjsip) (older : List Record) (p : PendingAuth) (cause : Cause) (code : ℕ)
    (actions : List Action) : Prop :=
  ∃ msg answer challenge status, pj.parseRdata p.packet = some msg ∧
    .respond (some p.transaction) answer challenge false status ∈ actions ∧
    (code = 200 → (answer = 500 ↔ (lastAccepted pj older).Overtaken p.deviceId msg) ∧
      (answer = 200 ↔ ¬ (lastAccepted pj older).Overtaken p.deviceId msg)) ∧
    (code ≠ 200 → answer = code) ∧
    lastAccepted pj (.left p cause actions :: older) =
      if answer = 200 ∧ status = .success then (lastAccepted pj older).accept p.deviceId msg
      else lastAccepted pj older

section map

variable {pj : Pjsip} {older : List Record} {p : PendingAuth} {cause : Cause}
  {actions : List Action}

/-- A record that sends no 200 and does not stop the runtime leaves the map as it is. -/
theorem lastAccepted_cons_of_none {r : Record} (hstopped : ∀ entries, r ≠ .stopped entries)
    (hnone : r.acceptedOrder pj = none) : lastAccepted pj (r :: older) = lastAccepted pj older := by
  cases r with
  | stopped entries => exact absurd rfl (hstopped entries)
  | answered | queued | processed => rfl
  | left => simp only [lastAccepted, hnone]

theorem lastAccepted_left_of_parse {msg : SipMsg} (hparse : pj.parseRdata p.packet = some msg) :
    lastAccepted pj (.left p cause actions :: older) =
      if actions.any Action.sentOk = true then (lastAccepted pj older).accept p.deviceId msg
      else lastAccepted pj older := by
  by_cases hsent : actions.any Action.sentOk = true
  · simp [lastAccepted, Record.acceptedOrder, hsent, hparse]
  · simp [lastAccepted, Record.acceptedOrder, hsent]

/-- The entries of other devices stay. -/
theorem lastAccepted_left_of_ne {device : Bytes} (hne : device ≠ p.deviceId) :
    lastAccepted pj (.left p cause actions :: older) device = lastAccepted pj older device := by
  rcases hparse : pj.parseRdata p.packet with _ | msg
  · have hnone : (Record.left p cause actions).acceptedOrder pj = none := by
      simp [Record.acceptedOrder, hparse]
    rw [lastAccepted_cons_of_none (by simp) hnone]
  · rw [lastAccepted_left_of_parse hparse]
    by_cases hsent : actions.any Action.sentOk = true
    · rw [if_pos hsent]
      exact Function.update_of_ne hne _ _
    · rw [if_neg hsent]

end map

/-! ## Completions -/

section completion

variable {pj : Pjsip} {env : CompleteEnv} {core core' : Core} {p : PendingAuth}
  {command : AuthCommand} {rx : RxData} {verdict : Verdict} {nonces : List AuthNonce}
  {status : PjStatus} {actions : List Action}

/-- A completion sends a 200 exactly if this is its answer and sending succeeds. -/
theorem Completes.any_sentOk
    (h : Completes pj env core p command rx verdict nonces status core' actions) :
    actions.any Action.sentOk = true ↔
      answerCode core.orders p rx.msg verdict.code = 200 ∧ status = .success := by
  obtain ⟨issue, events, rfl, hissue, hreports⟩ := h.actions
  have hfirst : issue.any Action.sentOk = false := by
    rw [List.any_eq_false]
    intro action hmem
    obtain ⟨value, now, rfl⟩ := hissue action hmem
    exact Bool.false_ne_true
  have hlast : events.any Action.sentOk = false := by
    rw [List.any_eq_false]
    intro action hmem
    obtain ⟨event, rfl, -⟩ := hreports.emits action hmem
    exact Bool.false_ne_true
  rw [List.any_append, List.any_cons, hfirst, hlast, Bool.false_or, Bool.or_false]
  exact decide_eq_true_iff

/-- A completion answers in the way of the map that the orders stand for. -/
theorem Completes.answers {older : List Record} {cause : Cause}
    (h : Completes pj env core p command rx verdict nonces status core' actions)
    (hmap : orderOf core.orders = lastAccepted pj older) :
    Answers pj older p cause verdict.code actions := by
  have hparse := rebuildPendingRdata_eq_some h.rebuilt
  have hstale : registerOrderIsStale core.orders p.deviceId rx.msg = true ↔
      (lastAccepted pj older).Overtaken p.deviceId rx.msg := by
    rw [registerOrderIsStale_iff, hmap]
    rfl
  refine ⟨rx.msg, answerCode core.orders p rx.msg verdict.code, verdict.challenge, status, hparse,
    ?_, ?_, ?_, ?_⟩
  · obtain ⟨issue, events, rfl, -, -⟩ := h.actions
    exact List.mem_append_right _ List.mem_cons_self
  · intro hcode
    rw [← hstale, answerCode, hcode]
    by_cases hover : registerOrderIsStale core.orders p.deviceId rx.msg = true
    · simp [hover]
    · simp [hover]
  · intro hcode
    exact if_neg fun hover => hcode hover.1
  · rw [lastAccepted_left_of_parse hparse]
    simp only [h.any_sentOk]

/-- A completion updates the map. -/
theorem Completes.orderOf {older : List Record} {cause : Cause}
    (h : Completes pj env core p command rx verdict nonces status core' actions)
    (hmap : orderOf core.orders = lastAccepted pj older)
    (hnodup : (core.orders.map RegisterOrder.deviceId).Nodup) (hcalloc : env.orderCalloc = true)
    (hfits : FitsOrder rx.msg) (hdevice : p.deviceId.length < 128 ∧ 0 ∉ p.deviceId) :
    Auth.orderOf core'.orders = lastAccepted pj (.left p cause actions :: older) := by
  rw [lastAccepted_left_of_parse (rebuildPendingRdata_eq_some h.rebuilt), h.core', ← hmap]
  simp only [ordersAfter, h.any_sentOk]
  by_cases hsent : answerCode core.orders p rx.msg verdict.code = 200 ∧ status = .success
  · rw [if_pos hsent, if_pos hsent.symm, hcalloc]
    exact orderOf_commitRegisterOrder hnodup hfits hdevice
  · rw [if_neg hsent, if_neg fun h => hsent h.symm]

end completion

/-! ## The invariant -/

/-- The allocation of an order by a completion did not fail. -/
def Record.orderCalloc : Record → Bool
  | .left _ (.completed _ env _) _ => env.orderCalloc
  | _ => true

/-- What the list needs to be the map: every queued REGISTER has a Call-ID that fits a record and a
CSeq that is not negative, and no allocation of a record fails. -/
structure Orderly (pj : Pjsip) (history : List Record) : Prop where
  fits : ∀ p ∈ entered history, ∀ msg ∈ pj.parseRdata p.packet, FitsOrder msg
  alloc : ∀ r ∈ history, r.orderCalloc = true

instance (pj : Pjsip) (history : List Record) : Decidable (Orderly pj history) :=
  decidable_of_iff ((∀ p ∈ entered history, ∀ msg ∈ pj.parseRdata p.packet, FitsOrder msg) ∧
    ∀ r ∈ history, r.orderCalloc = true) ⟨fun h => ⟨h.1, h.2⟩, fun h => ⟨h.fits, h.alloc⟩⟩

theorem Orderly.tail {pj : Pjsip} {r : Record} {history : List Record}
    (h : Orderly pj (r :: history)) : Orderly pj history := by
  constructor
  · intro p hp
    apply h.fits
    rw [entered_cons]
    exact List.mem_append_right _ hp
  · intro r' hmem
    exact h.alloc r' (List.mem_cons_of_mem r hmem)

/-- What holds of the orders and the history at any time. -/
structure Ordered (pj : Pjsip) (a : Ledger) : Prop where
  map : orderOf a.core.orders = lastAccepted pj a.history
  nodup : (a.core.orders.map RegisterOrder.deviceId).Nodup
  answers : ∀ newer p command env code actions older,
    a.history = newer ++ .left p (.completed command env (some code)) actions :: older →
    Answers pj older p (.completed command env (some code)) code actions

/-- The orders change by completions only, and every entry has a device that fits a record. -/
structure Quiescent (a : Ledger) : Prop where
  sources : a.core.sources = []
  device : ∀ p ∈ a.core.pending, p.deviceId.length < 128 ∧ 0 ∉ p.deviceId

theorem Quiescent.move {pj : Pjsip} {a b : Ledger} (hmove : Move pj a b) (h : Quiescent a) :
    Quiescent b := by
  have hunlink : ∀ {kept rest : List PendingAuth} {p : PendingAuth},
      a.core.pending = kept ++ p :: rest →
      ∀ q ∈ kept ++ rest, q.deviceId.length < 128 ∧ 0 ∉ q.deviceId := by
    intro kept rest p hp q hq
    apply h.device
    exact unlinked_subset hp hq
  cases hmove with
  | purge | answer | finish | start => exact ⟨h.sources, h.device⟩
  | enter rx p actions core' hstarted hparse hadmitted henters =>
    simp only [henters.core']
    refine ⟨h.sources, List.forall_mem_cons.mpr ⟨hadmitted.deviceFits, h.device⟩⟩
  | complete env kept rest p command rx verdict nonces status core' actions hpending hid hcomp =>
    simp only [hcomp.core']
    exact ⟨h.sources, hunlink hpending⟩
  | terminate kept rest p cause hpending => exact ⟨h.sources, hunlink hpending⟩
  | expire kept rest p status event hpending => exact ⟨h.sources, hunlink hpending⟩
  | release => exact ⟨rfl, fun p hp => absurd hp List.not_mem_nil⟩

namespace Ordered

variable {pj : Pjsip} {a : Ledger}

/-- One more record, behind which the orders stand for the map again. -/
theorem extend (h : Ordered pj a) {core' : Core} {transactions' : ℕ} {r : Record}
    (hmap : orderOf core'.orders = lastAccepted pj (r :: a.history))
    (hnodup : (core'.orders.map RegisterOrder.deviceId).Nodup)
    (hanswers : ∀ p command env code actions, r = .left p (.completed command env (some code)) actions →
      Answers pj a.history p (.completed command env (some code)) code actions) :
    Ordered pj ⟨core', transactions', r :: a.history⟩ := by
  refine ⟨hmap, hnodup, ?_⟩
  intro newer p command env code actions older hsplit
  cases newer with
  | nil =>
    obtain ⟨rfl, rfl⟩ := List.cons.inj hsplit
    exact hanswers p command env code actions rfl
  | cons s newer => exact h.answers newer p command env code actions older (List.cons.inj hsplit).2

/-- A record that leaves the orders and the map as they are. -/
theorem quiet (h : Ordered pj a) {core' : Core} {transactions' : ℕ} {r : Record}
    (horders : core'.orders = a.core.orders) (hstopped : ∀ entries, r ≠ .stopped entries)
    (hnone : r.acceptedOrder pj = none)
    (hleft : ∀ p command env code actions, r ≠ .left p (.completed command env (some code)) actions) :
    Ordered pj ⟨core', transactions', r :: a.history⟩ := by
  refine h.extend ?_ ?_ fun p command env code actions heq => absurd heq (hleft _ _ _ _ _)
  · rw [horders, lastAccepted_cons_of_none hstopped hnone]
    exact h.map
  · rw [horders]
    exact h.nodup

theorem complete {config : Config} (hresolved : Resolved config a) (hquiescent : Quiescent a)
    (h : Ordered pj a) {env : CompleteEnv} {kept rest : List PendingAuth} {p : PendingAuth}
    {command : AuthCommand} {rx : RxData} {verdict : Verdict} {nonces : List AuthNonce}
    {status : PjStatus} {core' : Core} {actions : List Action}
    (hpending : a.core.pending = kept ++ p :: rest)
    (hcomp : Completes pj env (a.core.unlink (kept ++ rest)) p command rx verdict nonces status
      core' actions)
    (horderly : Orderly pj
      (.left p (.completed command env (some verdict.code)) actions :: a.history)) :
    Ordered pj ⟨core', a.transactions,
      .left p (.completed command env (some verdict.code)) actions :: a.history⟩ := by
  have hp : p ∈ a.core.pending := by
    rw [hpending]
    exact List.mem_append_right _ List.mem_cons_self
  have hfits : FitsOrder rx.msg := horderly.tail.fits p (hresolved.mem_entered hp) rx.msg
    (rebuildPendingRdata_eq_some hcomp.rebuilt)
  have hcalloc : env.orderCalloc = true := horderly.alloc _ List.mem_cons_self
  refine h.extend ?_ ?_ ?_
  · exact hcomp.orderOf h.map h.nodup hcalloc hfits (hquiescent.device p hp)
  · rw [hcomp.core']
    simp only [ordersAfter]
    split_ifs
    · exact nodup_commitRegisterOrder h.nodup
    · exact h.nodup
  · intro p' command' env' code actions' heq
    obtain ⟨rfl, hcause, rfl⟩ := Record.left.inj heq
    obtain ⟨rfl, rfl, hcode⟩ := Cause.completed.inj hcause
    obtain rfl := Option.some.inj hcode
    exact hcomp.answers h.map

theorem move {config : Config} {b : Ledger} (hmove : Move pj a b) (hresolved : Resolved config a)
    (hquiescent : Quiescent a) (h : Orderly pj a.history → Ordered pj a)
    (horderly : Orderly pj b.history) : Ordered pj b := by
  cases hmove with
  | purge => exact { h horderly with }
  | answer =>
    apply (h horderly.tail).quiet
    · rfl
    · simp
    · rfl
    · simp
  | enter rx p actions core' hstarted hparse hadmitted henters =>
    apply (h horderly.tail).quiet
    · rw [henters.core']
    · simp
    · rfl
    · simp
  | complete env kept rest p command rx verdict nonces status core' actions hpending hid hcomp =>
    exact (h horderly.tail).complete hresolved hquiescent hpending hcomp horderly
  | terminate kept rest p cause hpending hcause =>
    apply (h horderly.tail).quiet
    · rfl
    · simp
    · rfl
    · intro p' command env code actions heq
      exact hcause command env code (Record.left.inj heq).2.1
  | expire =>
    apply (h horderly.tail).quiet
    · rfl
    · simp
    · rfl
    · simp
  | finish =>
    apply (h horderly.tail).quiet
    · rfl
    · simp
    · rfl
    · simp
  | start => exact { h horderly with }
  | release =>
    apply (h horderly.tail).extend
    · rfl
    · exact List.nodup_nil
    · simp

end Ordered

/-! ## Runs -/

/-- **The orders are the last accepted REGISTERs.** In every run without source calls in which every
REGISTER has a Call-ID that fits a record:
* the list stands for the map of the last accepted REGISTERs, and no device has two entries;
* a REGISTER whose credentials call for 200 is answered 500 exactly if it was overtaken, and a
  REGISTER that was not answered 200 or not answered leaves the map as it is;
* a completion leaves the entries of other devices as they are. -/
theorem orders_last_accepted (pj : Pjsip) (config : Config) (inputs : List Input)
    (hinputs : ∀ input ∈ inputs, input.isSourceCall = false)
    (horderly : Orderly pj (run pj config inputs).history) :
    let s := run pj config inputs
    orderOf s.runtime.registerOrders = lastAccepted pj s.history ∧
      (s.runtime.registerOrders.map RegisterOrder.deviceId).Nodup ∧
      (∀ newer p command env code actions older,
        s.history = newer ++ .left p (.completed command env (some code)) actions :: older →
        Answers pj older p (.completed command env (some code)) code actions) ∧
      ∀ older p cause actions device, device ≠ p.deviceId →
        lastAccepted pj (.left p cause actions :: older) device = lastAccepted pj older device := by
  have h : Resolved config (run pj config inputs).ledger ∧ Quiescent (run pj config inputs).ledger ∧
      (Orderly pj (run pj config inputs).ledger.history →
        Ordered pj (run pj config inputs).ledger) := by
    refine run_induction_of_no_source (P := fun a => Resolved config a ∧ Quiescent a ∧
      (Orderly pj a.history → Ordered pj a)) ?_ ?_ (fun a ha => ha.2.1.sources) inputs hinputs
    · refine ⟨resolved_init config, ⟨rfl, fun p hp => absurd hp List.not_mem_nil⟩, fun _ => ?_⟩
      refine ⟨rfl, List.nodup_nil, ?_⟩
      intro newer p command env code actions older hsplit
      simp [Sys.ledger, Sys.init] at hsplit
    · rintro a b hmove ⟨hresolved, hquiescent, hold⟩
      exact ⟨hresolved.move hmove, hquiescent.move hmove, Ordered.move hmove hresolved hquiescent hold⟩
  obtain ⟨hmap, hnodup, hanswers⟩ := h.2.2 horderly
  exact ⟨hmap, hnodup, hanswers, fun _ _ _ _ _ hne => lastAccepted_left_of_ne hne⟩

/-- A device that registers twice has its second REGISTER in the list. -/
theorem orders_last_accepted_sample :
    let s := run samplePjsip sampleConfig (sampleInputs [2] [3])
    Orderly samplePjsip s.history ∧ lastAccepted samplePjsip s.history [7] = some ([3], 3) ∧
      orderOf s.runtime.registerOrders = lastAccepted samplePjsip s.history := by
  have horderly : Orderly samplePjsip
      (run samplePjsip sampleConfig (sampleInputs [2] [3])).history := by
    decide +kernel
  refine ⟨horderly, by decide +kernel, ?_⟩
  exact (orders_last_accepted samplePjsip sampleConfig _ (by decide) horderly).1

/-- **A Call-ID with a NUL is not stored.** Both REGISTERs are accepted, although the second repeats
the Call-ID of the first with a smaller CSeq, and the list does not stand for the map. -/
theorem orders_nul_callId :
    let inputs := .start .success :: Input.round [] 10 [6] 1 .bypass ++ Input.round [] 20 [7] 2 .bypass
    let s := run samplePjsip sampleConfig inputs
    (∀ input ∈ inputs, input.isSourceCall = false) ∧ (∀ r ∈ s.history, r.orderCalloc = true) ∧
      (s.trace.filterMap (Record.acceptedOrder samplePjsip)).map (fun x => (x.1, orderKey x.2)) =
        [([7], some ([0], 5)), ([7], some ([0], 4))] ∧
      orderOf s.runtime.registerOrders ≠ lastAccepted samplePjsip s.history := by
  refine ⟨by decide, by decide +kernel, by decide +kernel, ?_⟩
  intro hmap
  have hdevice := congrFun hmap [7]
  revert hdevice
  decide +kernel

end GmvPjsip.Auth
