import GmvPjsip.Access.Orders
import GmvPjsip.Auth.Ordering

/-!
# Orders and the application's feedback

The application answers a REGISTERED event with a source call that passes the Call-ID and the CSeq
of the event back, and the shim takes them over. What this does to the order that the shim has
recorded meanwhile.

* `GrantOp.Feeds` says what a source call or a sweep must not do: pass an older CSeq or another
  Call-ID, let a recovery grant of the device expire, remove the device. `Undisturbed` says so of
  every input of a run, at the time it comes.
* `Steady`: what the device itself must not do meanwhile. `Retained`: its order is kept, and the
  REGISTERs accepted meanwhile do not fall behind it.
* `order_not_rolled_back`: in such a run the order is retained. `order_rolled_back` are two runs in
  which it is not: a call with the CSeq of an event that was overtaken, and the expiry of a recovery
  grant.
-/

namespace GmvPjsip.Access

open GmvPjsip.Auth GmvPjsip.Lib

/-! ## What an input must not do -/

/-- If a source call is for the device and passes an order, the order is of the given Call-ID and
not older than the recorded one. -/
def Confirms (deviceId callId : Bytes) (orders : List RegisterOrder) (args : SourceArgs) : Prop :=
  (copySource args).map Prod.fst = some deviceId → ∀ passed, args.registrationCallId = .bytes passed →
    passed ≠ [] → args.registrationCseq ≠ 0 → passed = callId ∧
      ∀ last, Auth.orderOf orders deviceId = some (callId, last) → last ≤ args.registrationCseq

/-- The operation does not disturb the order of the device. -/
def GrantOp.Feeds (deviceId callId : Bytes) (grants : Grants) : GrantOp → Prop
  | .allowRegisteredSource _ args => Confirms deviceId callId grants.orders args
  | .allowRecoverySource env args _ =>
    Unexpired deviceId env.cleanupNow grants.sources ∧ Confirms deviceId callId grants.orders args
  | .removeRegisteredSource view => copyView 128 view ≠ some deviceId
  | .cleanup now => Unexpired deviceId now grants.sources
  | .query now .. => Unexpired deviceId now grants.sources

/-- No input of a run disturbs the order of the device. -/
def Undisturbed (pj : Pjsip) (deviceId callId : Bytes) : Sys → List Input → Prop
  | _, [] => True
  | s, input :: rest =>
    (∀ op, grantOp input = some op → op.Feeds deviceId callId s.grants) ∧
      Undisturbed pj deviceId callId (step pj s input) rest

/-! ## What they do to the order -/

section

variable {deviceId callId : Bytes} {sources : List RegisteredSource} {orders : List RegisterOrder}
  {last now : ℕ}

/-- A call that confirms the order keeps it or moves it forward. -/
theorem orderOf_syncSource {env : GrantEnv} {args : SourceArgs} {device address : Bytes}
    (hconfirms : Confirms deviceId callId orders args)
    (hcopy : copySource args = some (device, address))
    (hfits : callId.length < callIdCapacity ∧ 0 ∉ callId)
    (horder : Auth.orderOf orders deviceId = some (callId, last)) :
    ∃ next, last ≤ next ∧
      Auth.orderOf (syncSource env args device orders) deviceId = some (callId, next) := by
  unfold syncSource
  by_cases hdevice : deviceId = device
  · subst hdevice
    have hconfirms := hconfirms (by rw [hcopy]; rfl)
    rcases hview : args.registrationCallId with len | passed
    · exact ⟨last, Nat.le_refl _, horder⟩
    · by_cases hpassed : passed = [] ∨ args.registrationCseq = 0
      · have hunset : (StringView.bytes passed).len = 0 ∨ args.registrationCseq = 0 :=
          hpassed.imp_left List.length_eq_zero_iff.mpr
        rw [syncRegisterOrder, if_pos hunset]
        exact ⟨last, Nat.le_refl _, horder⟩
      · rw [not_or] at hpassed
        obtain ⟨rfl, hlast⟩ := hconfirms passed hview hpassed.1 hpassed.2
        exact ⟨args.registrationCseq, hlast last horder,
          orderOf_syncRegisterOrder_self horder hfits hpassed.1 hpassed.2⟩
  · refine ⟨last, Nat.le_refl _, ?_⟩
    rw [orderOf_syncRegisterOrder_ne hdevice]
    exact horder

/-- **An operation that does not disturb the order keeps it or moves it forward.** -/
theorem GrantOp.Feeds.orderOf {op : GrantOp} {grants : Grants}
    (h : op.Feeds deviceId callId grants) (hfits : callId.length < callIdCapacity ∧ 0 ∉ callId)
    (horder : Auth.orderOf grants.orders deviceId = some (callId, last)) :
    ∃ next, last ≤ next ∧ Auth.orderOf (op.exec grants).2.orders deviceId = some (callId, next) := by
  have hsame : ∃ next, last ≤ next ∧
      Auth.orderOf grants.orders deviceId = some (callId, next) := ⟨last, Nat.le_refl _, horder⟩
  have hswept : ∀ {time}, Unexpired deviceId time grants.sources → Auth.orderOf
      (cleanupRecoverySources time grants.sources grants.orders).orders deviceId =
        some (callId, last) := fun hunexpired => (orderOf_cleanup hunexpired).trans horder
  cases op with
  | allowRegisteredSource env args =>
    simp only [GrantOp.exec]
    rcases allowRegisteredSource_cases env args grants with
      ⟨status, -, hexec⟩ | ⟨device, address, generation, -, hcopy, hexec⟩
    · rw [hexec]
      exact hsame
    · rw [hexec]
      exact orderOf_syncSource h hcopy hfits horder
  | allowRecoverySource env args ttlMs =>
    simp only [GrantOp.exec]
    obtain ⟨hunexpired, hconfirms⟩ := h
    have hconfirms' : Confirms deviceId callId
        (cleanupRecoverySources env.cleanupNow grants.sources grants.orders).orders args := by
      intro hdevice passed hview hnamed hcseq
      obtain ⟨hcall, hlast⟩ := hconfirms hdevice passed hview hnamed hcseq
      exact ⟨hcall, fun last' hlast' => hlast last' (orderOf_cleanup hunexpired ▸ hlast')⟩
    rcases allowRecoverySource_cases env args ttlMs grants with
      ⟨status, -, hexec⟩ | ⟨device, address, -, -, hcopy, hexec⟩
    · rw [hexec]
      exact hsame
    · rcases hexec with ⟨item, -, -, hexec⟩ | hexec | ⟨generation, -, hexec⟩
      · rw [hexec]
        exact ⟨last, Nat.le_refl _, hswept hunexpired⟩
      · rw [hexec]
        exact orderOf_syncSource hconfirms' hcopy hfits (hswept hunexpired)
      · rw [hexec]
        exact orderOf_syncSource hconfirms' hcopy hfits (hswept hunexpired)
  | removeRegisteredSource view =>
    simp only [GrantOp.exec]
    rcases removeRegisteredSource_cases view grants with
      ⟨status, -, hexec⟩ | ⟨device, hcopy, hexec⟩
    · rw [hexec]
      exact hsame
    · have hne : deviceId ≠ device := by
        rintro rfl
        exact h hcopy
      rw [hexec]
      refine ⟨last, Nat.le_refl _, ?_⟩
      rw [← horder]
      unfold Auth.orderOf removeRegisterOrder
      rw [Keyed.get_erase_ne hne]
  | cleanup => exact ⟨last, Nat.le_refl _, hswept h⟩
  | query =>
    simp only [GrantOp.exec, registeredSourceAllowed]
    split_ifs
    · exact hsame
    · exact ⟨last, Nat.le_refl _, hswept h⟩

end

/-! ## The order is retained -/

/-- The CSeq of a REGISTER of the device that a record answers 200. -/
def acceptedCseq (pj : Pjsip) (deviceId : Bytes) (r : Record) : Option ℕ :=
  (r.acceptedOrder pj).bind fun (device, msg) =>
    if device = deviceId then (orderKey msg).map Prod.snd else none

theorem acceptedCseq_of_accepted {pj : Pjsip} {deviceId device : Bytes} {r : Record} {msg : SipMsg}
    (h : r.acceptedOrder pj = some (device, msg)) : acceptedCseq pj deviceId r =
      if device = deviceId then (orderKey msg).map Prod.snd else none := by
  rw [acceptedCseq, h]
  rfl

/-- The record says that the runtime was stopped. -/
def stops : Record → Bool
  | .stopped _ => true
  | _ => false

/-- The runtime was not stopped, and each REGISTER of the device that was accepted has the given
Call-ID and does not expire at once. -/
structure Steady (pj : Pjsip) (deviceId callId : Bytes) (new : List Record) : Prop where
  running : ∀ r ∈ new, stops r = false
  sameCall : ∀ r ∈ new, ∀ msg, r.acceptedOrder pj = some (deviceId, msg) →
    registerExpires msg ≠ 0 ∧ ∀ key, orderKey msg = some key → key.1 = callId

instance (pj : Pjsip) (deviceId callId : Bytes) (new : List Record) :
    Decidable (Steady pj deviceId callId new) :=
  decidable_of_iff ((∀ r ∈ new, stops r = false) ∧ ∀ r ∈ new, ∀ x ∈ r.acceptedOrder pj,
      x.1 = deviceId → registerExpires x.2 ≠ 0 ∧ ∀ key ∈ orderKey x.2, key.1 = callId)
    ⟨fun h => ⟨h.1, fun r hr _ hmsg => h.2 r hr _ hmsg rfl⟩,
      fun h => ⟨h.running, fun r hr x hx hdevice => h.sameCall r hr x.2 (hdevice ▸ hx)⟩⟩

theorem Steady.tail {pj : Pjsip} {deviceId callId : Bytes} {r : Record} {new : List Record}
    (h : Steady pj deviceId callId (r :: new)) : Steady pj deviceId callId new :=
  ⟨fun r' hr' => h.running r' (List.mem_cons_of_mem r hr'),
    fun r' hr' => h.sameCall r' (List.mem_cons_of_mem r hr')⟩

/-- The order of the device is still there and not older than `first`, and the accepted REGISTERs do
not fall behind, the newest being first. -/
structure Retained (pj : Pjsip) (deviceId callId : Bytes) (first : ℕ) (new : List Record)
    (orders : List RegisterOrder) : Prop where
  order : ∃ last, first ≤ last ∧ Auth.orderOf orders deviceId = some (callId, last) ∧
    ∀ cseq ∈ new.filterMap (acceptedCseq pj deviceId), cseq ≤ last
  forward : (new.filterMap (acceptedCseq pj deviceId)).Pairwise (· ≥ ·)
  bounded : ∀ cseq ∈ new.filterMap (acceptedCseq pj deviceId), first ≤ cseq

namespace Retained

variable {pj : Pjsip} {deviceId callId : Bytes} {first : ℕ} {new : List Record}
  {orders orders' : List RegisterOrder}

/-- A record that accepts nothing from the device and leaves its order. -/
theorem quiet (h : Retained pj deviceId callId first new orders) {r : Record}
    (hnone : acceptedCseq pj deviceId r = none)
    (horder : Auth.orderOf orders' deviceId = Auth.orderOf orders deviceId) :
    Retained pj deviceId callId first (r :: new) orders' := by
  have hnew : (r :: new).filterMap (acceptedCseq pj deviceId) =
      new.filterMap (acceptedCseq pj deviceId) := List.filterMap_cons_none hnone
  refine ⟨?_, ?_, ?_⟩
  · rw [hnew, horder]
    exact h.order
  · rw [hnew]
    exact h.forward
  · rw [hnew]
    exact h.bounded

/-- A record that accepts a REGISTER which was not overtaken. -/
theorem accept (h : Retained pj deviceId callId first new orders) {r : Record} {cseq : ℕ}
    (hsome : acceptedCseq pj deviceId r = some cseq)
    (hfresh : ∀ last, Auth.orderOf orders deviceId = some (callId, last) → last ≤ cseq)
    (horder : Auth.orderOf orders' deviceId = some (callId, cseq)) :
    Retained pj deviceId callId first (r :: new) orders' := by
  obtain ⟨last, hfirst, hlast, hold⟩ := h.order
  have hle := hfresh last hlast
  have hnew : (r :: new).filterMap (acceptedCseq pj deviceId) =
      cseq :: new.filterMap (acceptedCseq pj deviceId) := List.filterMap_cons_some hsome
  have hbelow : ∀ older ∈ new.filterMap (acceptedCseq pj deviceId), older ≤ cseq :=
    fun older holder => Nat.le_trans (hold older holder) hle
  refine ⟨?_, ?_, ?_⟩
  · refine ⟨cseq, Nat.le_trans hfirst hle, horder, ?_⟩
    rw [hnew]
    exact List.forall_mem_cons.mpr ⟨Nat.le_refl _, hbelow⟩
  · rw [hnew]
    exact List.pairwise_cons.mpr ⟨hbelow, h.forward⟩
  · rw [hnew]
    exact List.forall_mem_cons.mpr ⟨Nat.le_trans hfirst hle, h.bounded⟩

/-- The order moves forward without a record. -/
theorem advance (h : Retained pj deviceId callId first new orders)
    (horder : ∀ last, Auth.orderOf orders deviceId = some (callId, last) →
      ∃ next, last ≤ next ∧ Auth.orderOf orders' deviceId = some (callId, next)) :
    Retained pj deviceId callId first new orders' := by
  obtain ⟨last, hfirst, hlast, hold⟩ := h.order
  obtain ⟨next, hle, hnext⟩ := horder last hlast
  exact ⟨⟨next, Nat.le_trans hfirst hle, hnext,
    fun cseq hcseq => Nat.le_trans (hold cseq hcseq) hle⟩, h.forward, h.bounded⟩

/-- A completion. -/
theorem complete (h : Retained pj deviceId callId first new orders) (hfits : CallIdsFit orders)
    {env : CompleteEnv} {core core' : Core} {p : PendingAuth} {command : AuthCommand}
    {rx : RxData} {verdict : Verdict} {nonces : List AuthNonce} {status : PjStatus}
    {actions : List Action} {cause : Cause} (horders : core.orders = orders)
    (hcomp : Completes pj env core p command rx verdict nonces status core' actions)
    (hsteady : Steady pj deviceId callId (.left p cause actions :: new)) :
    Retained pj deviceId callId first (.left p cause actions :: new) core'.orders := by
  subst horders
  have hparse := rebuildPendingRdata_eq_some hcomp.rebuilt
  have horders' : core'.orders = ordersAfter env core.orders p rx.msg
      (answerCode core.orders p rx.msg verdict.code) status := by rw [hcomp.core']
  by_cases hsent : answerCode core.orders p rx.msg verdict.code = 200 ∧ status = .success
  swap
  · -- nothing was accepted, so the orders are as before
    apply h.quiet
    · rw [acceptedCseq, Record.acceptedOrder, if_neg fun hany => hsent (hcomp.any_sentOk.mp hany)]
      rfl
    · rw [horders', ordersAfter, if_neg fun hboth => hsent hboth.symm]
  have haccepted : (Record.left p cause actions).acceptedOrder pj = some (p.deviceId, rx.msg) := by
    rw [Record.acceptedOrder, if_pos (hcomp.any_sentOk.mpr hsent), hparse]
    rfl
  have hcommit : core'.orders = commitRegisterOrder env.orderCalloc core.orders p.deviceId rx.msg := by
    rw [horders', ordersAfter, if_pos hsent.symm]
  by_cases hdevice : p.deviceId = deviceId
  swap
  · apply h.quiet
    · rw [acceptedCseq_of_accepted haccepted, if_neg hdevice]
    · rw [hcommit]
      exact orderOf_commitRegisterOrder_ne (Ne.symm hdevice)
  subst hdevice
  obtain ⟨hexpires, hcall⟩ := hsteady.sameCall _ List.mem_cons_self rx.msg haccepted
  rcases hkey : orderKey rx.msg with _ | ⟨call, cseq⟩
  · -- a REGISTER without a Call-ID or with a negative CSeq is not noted
    apply h.quiet
    · rw [acceptedCseq_of_accepted haccepted, if_pos rfl, hkey]
      rfl
    · rw [hcommit, commitRegisterOrder, hkey]
  · obtain rfl : call = callId := hcall (call, cseq) hkey
    have hcseq : acceptedCseq pj p.deviceId (.left p cause actions) = some cseq := by
      rw [acceptedCseq_of_accepted haccepted, if_pos rfl, hkey]
      rfl
    apply h.accept hcseq
    · -- it was answered 200, so it was not stale
      intro last hlast
      by_contra hlt
      have hstale : registerOrderIsStale core.orders p.deviceId rx.msg = true :=
        registerOrderIsStale_iff.mpr ⟨call, cseq, last, hkey, hlast, Nat.not_le.mp hlt⟩
      have hcode := hsent.1
      simp only [answerCode, hstale, and_true] at hcode
      split_ifs at hcode with hok
      · cases hcode
      · exact hok hcode
    · obtain ⟨last, -, hlast, -⟩ := h.order
      rw [hcommit]
      exact orderOf_commitRegisterOrder_self hlast (hfits.of_orderOf hlast) hkey hexpires

end Retained

/-! ## Runs -/

section

variable {pj : Pjsip} {deviceId callId : Bytes} {first : ℕ} {start : List Record}

/-- Where a run has come to: the Call-IDs in the list fit, and if the device was steady since
`start`, its order is retained. -/
def Since (pj : Pjsip) (deviceId callId : Bytes) (first : ℕ) (start : List Record) (a : Ledger) :
    Prop :=
  CallIdsFit a.core.orders ∧ ∃ new, a.history = new ++ start ∧
    (Steady pj deviceId callId new → Retained pj deviceId callId first new a.core.orders)

theorem since_move {a b : Ledger} (hmove : Move pj a b)
    (h : Since pj deviceId callId first start a) : Since pj deviceId callId first start b := by
  refine ⟨callIdsFit_invariant.move hmove h.1, ?_⟩
  obtain ⟨hfits, new, hnew, hretained⟩ := h
  -- a record that accepts nothing, on orders that stay as they are
  have hquiet : ∀ {r : Record}, r.acceptedOrder pj = none → Steady pj deviceId callId (r :: new) →
      Retained pj deviceId callId first (r :: new) a.core.orders := by
    intro r hnone hsteady
    refine (hretained hsteady.tail).quiet ?_ rfl
    rw [acceptedCseq, hnone]
    rfl
  have hcons : ∀ r : Record, r :: a.history = (r :: new) ++ start := by
    intro r
    rw [hnew, List.cons_append]
  cases hmove with
  | purge | start => exact ⟨new, hnew, hretained⟩
  | answer => exact ⟨_, hcons _, hquiet rfl⟩
  | enter rx p actions core' hstarted hparse hadmitted henters =>
    refine ⟨_, hcons _, ?_⟩
    simp only [henters.core']
    exact hquiet rfl
  | complete env kept rest p command rx verdict nonces status core' actions hpending hid hcomp =>
    refine ⟨_, hcons _, fun hsteady => ?_⟩
    have horders : (a.core.unlink (kept ++ rest)).orders = a.core.orders := rfl
    exact (hretained hsteady.tail).complete hfits horders hcomp hsteady
  | terminate | expire | finish => exact ⟨_, hcons _, hquiet rfl⟩
  | release =>
    refine ⟨_, hcons _, fun hsteady => ?_⟩
    exact absurd (hsteady.running _ List.mem_cons_self) Bool.noConfusion

/-- One input that does not disturb the order. -/
theorem since_step {s : Sys} {input : Input}
    (hfeeds : ∀ op, grantOp input = some op → op.Feeds deviceId callId s.grants)
    (h : Since pj deviceId callId first start s.ledger) :
    Since pj deviceId callId first start (step pj s input).ledger := by
  rcases hop : grantOp input with _ | op
  · have hnone : input.edits s.grants = none := by rw [edits_eq, hop, Option.map_none]
    exact preserved (P := Since pj deviceId callId first start) (fun _ _ => since_move)
      (step_moves_of_none hnone) h
  · have hsome : input.edits s.grants = some (op.exec s.grants).2 := by
      rw [edits_eq, hop, Option.map_some]
    rw [step_of_edits hsome, whenStarted]
    split_ifs
    · obtain ⟨hfits, new, hnew, hretained⟩ := h
      refine ⟨callIdsFit_invariant.exec hfits op, new, hnew, fun hsteady => ?_⟩
      refine (hretained hsteady).advance fun last hlast => ?_
      exact (hfeeds op hop).orderOf (hfits.of_orderOf hlast) hlast
    · exact h

/-- A run that does not disturb the order. -/
theorem since_run {s : Sys} {inputs : List Input} (hinputs : Undisturbed pj deviceId callId s inputs)
    (h : Since pj deviceId callId first start s.ledger) :
    Since pj deviceId callId first start (inputs.foldl (step pj) s).ledger := by
  induction inputs generalizing s with
  | nil => exact h
  | cons input rest ih => exact ih hinputs.2 (since_step hinputs.1 h)

end

/-- **The order of a device is not rolled back.** Let a Call-ID and a CSeq be recorded for a device
behind a run. In every continuation in which

* the device is not unregistered and no REGISTER of it with another Call-ID is accepted,
* the runtime is not stopped and the device is not removed,
* each source call for the device that passes an order passes this Call-ID and a CSeq that is not
  older than the recorded one, and
* no recovery grant of the device expires,

the order is neither forgotten nor does its CSeq decrease, and no REGISTER is answered 200 that is
older than the recorded one or than one that was answered 200 in the continuation. -/
theorem order_not_rolled_back (pj : Pjsip) (config : Config) (before after : List Input)
    (deviceId callId : Bytes) (first : ℕ)
    (hrecorded : Auth.orderOf (run pj config before).runtime.registerOrders deviceId =
      some (callId, first))
    (hundisturbed : Undisturbed pj deviceId callId (run pj config before) after)
    (new : List Record)
    (hnew : (run pj config (before ++ after)).history = new ++ (run pj config before).history)
    (hsteady : Steady pj deviceId callId new) :
    (∃ last, first ≤ last ∧
      Auth.orderOf (run pj config (before ++ after)).runtime.registerOrders deviceId =
        some (callId, last)) ∧
    (new.filterMap (acceptedCseq pj deviceId)).Pairwise (· ≥ ·) ∧
    ∀ cseq ∈ new.filterMap (acceptedCseq pj deviceId), first ≤ cseq := by
  have hstart : Since pj deviceId callId first (run pj config before).history
      (run pj config before).ledger := by
    refine ⟨callIdsFit_invariant.run pj config before, [], rfl, fun _ => ⟨?_, List.Pairwise.nil, ?_⟩⟩
    · exact ⟨first, Nat.le_refl _, hrecorded, fun cseq hcseq => absurd hcseq List.not_mem_nil⟩
    · exact fun cseq hcseq => absurd hcseq List.not_mem_nil
  obtain ⟨-, new', hnew', hretained⟩ := since_run hundisturbed hstart
  rw [← run_append] at hnew' hretained
  obtain rfl : new' = new := List.append_cancel_right (hnew'.symm.trans hnew)
  obtain ⟨⟨last, hfirst, hlast, -⟩, hforward, hbounded⟩ := hretained hsteady
  exact ⟨⟨last, hfirst, hlast⟩, hforward, hbounded⟩

/-- REGISTERs of one call without a header, with the CSeq 2 and 3. -/
def feedbackPjsip : Pjsip :=
  .server fun packet => [([2], registerMsg [] [3] 2 60), ([3], registerMsg [] [3] 3 60)].lookup packet

/-- The REGISTER of a packet arrives and is accepted. -/
def accepted (packet : Bytes) (lookupId : ℕ) : List Input := Input.round [] 10 packet lookupId .bypass

/-- A source call for the device with the order of a REGISTERED event. -/
def feedbackArgs (cseq : ℕ) : SourceArgs :=
  ⟨sourceSize, abiVersion, .udp, .bytes [7], .bytes [1], .bytes [3], cseq⟩

theorem order_not_rolled_back_sample :
    let before := .start .success :: accepted [2] 1
    let after := .allowRegisteredSource ⟨true, true, 0, 0⟩ (feedbackArgs 2) :: accepted [3] 2
    Auth.orderOf (run feedbackPjsip sampleConfig before).runtime.registerOrders [7] = some ([3], 2) ∧
      ∃ last, 2 ≤ last ∧ Auth.orderOf
        (run feedbackPjsip sampleConfig (before ++ after)).runtime.registerOrders [7] =
          some ([3], last) := by
  intro before after
  have hrecorded : Auth.orderOf (run feedbackPjsip sampleConfig before).runtime.registerOrders [7] =
        some ([3], 2) := by decide +kernel
  refine ⟨hrecorded, ?_⟩
  let new := (run feedbackPjsip sampleConfig (before ++ after)).history.take 3
  refine (order_not_rolled_back feedbackPjsip sampleConfig before after [7] [3] 2 hrecorded ?_ new
    ?_ ?_).1
  · refine ⟨?_, fun op hop => ?_, fun op hop => ?_, fun op hop => ?_, trivial⟩
    · rintro op ⟨⟩ - passed hpassed - -
      obtain rfl : [3] = passed := StringView.bytes.inj hpassed
      refine ⟨rfl, fun last hlast => ?_⟩
      exact Nat.le_of_eq (congrArg Prod.snd (Option.some.inj (hlast.symm.trans hrecorded)))
    · cases hop
    · cases hop
    · cases hop
  · decide +kernel
  · decide +kernel

/-- The record emits a REGISTERED event with this order. -/
def registers (deviceId callId : Bytes) (cseq : ℕ) (r : Record) : Bool :=
  r.actions.any fun
    | .emit event => decide (event.eventType = .registered ∧ event.deviceId = deviceId ∧
        event.callId = callId ∧ event.cseq = cseq)
    | _ => false

/-- **The order is rolled back.** In both runs the device registers with the CSeq 2 and 3 of one
call, and then a REGISTER with the CSeq 2 is answered 200 again.

* The application answers the first REGISTERED event after the second REGISTER was accepted.
* The application answers the first event with a recovery grant, which expires. -/
theorem order_rolled_back :
    let first := .start .success :: accepted [2] 1
    let overtaken := first ++ accepted [3] 2 ++
      .allowRegisteredSource ⟨true, true, 0, 0⟩ (feedbackArgs 2) :: accepted [2] 3
    let expired := first ++
      .allowRecoverySource ⟨true, true, 20, 20⟩ (feedbackArgs 2) 5 :: accepted [3] 2 ++
      .cleanup 30 :: accepted [2] 3
    (run feedbackPjsip sampleConfig first).history.any (registers [7] [3] 2) = true ∧
    ∀ inputs ∈ [overtaken, expired],
      let history := (run feedbackPjsip sampleConfig inputs).history
      Steady feedbackPjsip [7] [3] history ∧
      history.reverse.filterMap (acceptedCseq feedbackPjsip [7]) = [2, 3, 2] := by
  intro first overtaken expired
  refine ⟨by decide +kernel, ?_⟩
  intro inputs hinputs
  simp only [List.mem_cons, List.not_mem_nil, or_false] at hinputs
  rcases hinputs with rfl | rfl
  · exact ⟨by decide +kernel, by decide +kernel⟩
  · exact ⟨by decide +kernel, by decide +kernel⟩

end GmvPjsip.Access
