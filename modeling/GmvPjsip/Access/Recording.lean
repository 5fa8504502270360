import GmvPjsip.Access.Orders
import GmvPjsip.Auth.Ordering

/-!
# Accepted orders are recorded

A REGISTER that is answered 200 and a source call that passes an order both set the order of their
device. Both copy the Call-ID into a buffer of 256 bytes once the record is in the list, and neither
tells when it does not fit.

* `Accepts` says how an order comes to be accepted: by a REGISTER, by a live grant or by a recovery
  grant, which begins with a sweep.
* `Recorded` is what is wanted of it: the order is stored, those of the other devices stay, and no
  device has two.
* `accepted_order_recorded`: it is recorded if its Call-ID fits the buffer and, for a recovery grant, no
  other device with an order has a grant that has expired by then, and only then. `accepted_order_lost`
  has orders that are not recorded.
-/

namespace GmvPjsip.Access

open GmvPjsip.Auth GmvPjsip.Lib

/-- A Call-ID that can be stored. -/
def FitsCallId (callId : Bytes) : Prop := callId.length < callIdCapacity ∧ 0 ∉ callId

/-- What holds of the orders in every run. -/
structure WellKept (orders : List RegisterOrder) : Prop where
  once : (orders.map RegisterOrder.deviceId).Nodup
  fit : CallIdsFit orders

/-- An order is accepted for a device: `before` are the lists before and `after` those after it. `sweep`
is the time a recovery grant sweeps the expired grants at, and there is none for the others. Allocations
succeed. -/
inductive Accepts (pj : Pjsip) :
    Grants → Option ℕ → Bytes → Bytes → ℕ → Grants → Prop
  /-- A REGISTER that does not expire at once is answered 200. -/
  | register (env : CompleteEnv) (rt : Runtime) (p : PendingAuth) (command : AuthCommand) (rx : RxData)
      (callId : Bytes) (cseq : ℕ) (halloc : env.orderCalloc = true)
      (hdevice : p.deviceId.length < deviceIdCapacity ∧ 0 ∉ p.deviceId)
      (hrx : rebuildPendingRdata pj p = some rx) (hkey : orderKey rx.msg = some (callId, cseq))
      (hexpires : registerExpires rx.msg ≠ 0)
      (hsent : (completePendingAuth pj env rt p command).2.any Action.sentOk = true) :
      Accepts pj ⟨rt.registeredSources, rt.registerOrders⟩ none p.deviceId callId cseq
        ⟨(completePendingAuth pj env rt p command).1.registeredSources,
          (completePendingAuth pj env rt p command).1.registerOrders⟩
  /-- A live grant succeeds that passes a Call-ID and a CSeq. -/
  | registeredSource (env : GrantEnv) (args : SourceArgs) (before after : Grants)
      (deviceId address callId : Bytes) (halloc : env.orderCalloc = true)
      (hcopy : copySource args = some (deviceId, address))
      (hcallId : args.registrationCallId = .bytes callId) (hnamed : callId ≠ [])
      (hcseq : args.registrationCseq ≠ 0)
      (hsuccess : allowRegisteredSource env args before = (.success, after)) :
      Accepts pj before none deviceId callId args.registrationCseq after
  /-- A recovery grant succeeds that passes a Call-ID and a CSeq, and the device has no live grant. -/
  | recoverySource (env : GrantEnv) (args : SourceArgs) (ttlMs : ℕ) (before after : Grants)
      (deviceId address callId : Bytes) (halloc : env.orderCalloc = true)
      (hcopy : copySource args = some (deviceId, address))
      (hcallId : args.registrationCallId = .bytes callId) (hnamed : callId ≠ [])
      (hcseq : args.registrationCseq ≠ 0)
      (hlive : ∀ item ∈ before.sources, item.deviceId = deviceId → item.recoveryExpiresAtMs ≠ 0)
      (hsuccess : allowRecoverySource env args ttlMs before = (.success, after)) :
      Accepts pj before (some env.cleanupNow) deviceId callId args.registrationCseq after

/-- The orders a new one is written to. -/
def sweptOrders (before : Grants) (sweep : Option ℕ) : List RegisterOrder :=
  match sweep with
  | none => before.orders
  | some now => (cleanupRecoverySources now before.sources before.orders).orders

/-- The order is stored, the others stay, and no device has two. -/
structure Recorded (before after : List RegisterOrder) (deviceId callId : Bytes) (cseq : ℕ) : Prop where
  own : Auth.orderOf after deviceId = some (callId, cseq)
  others : ∀ other ≠ deviceId, Auth.orderOf after other = Auth.orderOf before other
  once : (after.map RegisterOrder.deviceId).Nodup

/-! ## What is written -/

/-- A REGISTER that is answered 200 is noted. -/
theorem completePendingAuth_orders {pj : Pjsip} {env : CompleteEnv} {rt : Runtime} {p : PendingAuth}
    {command : AuthCommand} {rx : RxData} (hrx : rebuildPendingRdata pj p = some rx)
    (hsent : (completePendingAuth pj env rt p command).2.any Action.sentOk = true) :
    (completePendingAuth pj env rt p command).1.registerOrders =
      commitRegisterOrder env.orderCalloc rt.registerOrders p.deviceId rx.msg := by
  rcases completePendingAuth_spec pj env rt p command with
    ⟨rt', hresult, -, hnone⟩ | ⟨rx', verdict, nonces, status, rt', actions, hresult, -, hcompletes⟩
  · rw [hrx] at hnone
    cases hnone
  · obtain rfl : rx' = rx := Option.some.inj (hcompletes.rebuilt.symm.trans hrx)
    rw [hresult] at hsent ⊢
    have hok := hcompletes.any_sentOk.mp hsent
    have horders := congrArg Core.orders hcompletes.core'
    simp only [ordersAfter, if_pos hok.symm] at horders
    exact horders

section accepts

variable {pj : Pjsip} {before after : Grants} {sweep : Option ℕ} {deviceId callId : Bytes} {cseq : ℕ}

/-- How the orders come about: one update of the swept ones, by a REGISTER or by a source call. -/
theorem Accepts.written (h : Accepts pj before sweep deviceId callId cseq after) :
    (∃ msg, after.orders = commitRegisterOrder true (sweptOrders before sweep) deviceId msg ∧
      orderKey msg = some (callId, cseq) ∧ registerExpires msg ≠ 0 ∧
      deviceId.length < deviceIdCapacity ∧ 0 ∉ deviceId) ∨
    (after.orders = syncRegisterOrder true (sweptOrders before sweep) deviceId (.bytes callId) cseq ∧
      callId ≠ [] ∧ cseq ≠ 0) := by
  cases h with
  | register env rt p command rx callId cseq halloc hdevice hrx hkey hexpires hsent =>
    refine Or.inl ⟨rx.msg, ?_, hkey, hexpires, hdevice⟩
    rw [← halloc]
    exact completePendingAuth_orders hrx hsent
  | registeredSource env args before after deviceId address callId halloc hcopy hcallId hnamed hcseq
      hsuccess =>
      refine Or.inr ⟨?_, hnamed, hcseq⟩
      rcases allowRegisteredSource_cases env args before with
        ⟨status, hstatus, hexec⟩ | ⟨device, address', generation, -, hcopy', hexec⟩
      · rw [hexec] at hsuccess
        exact absurd (Prod.mk.inj hsuccess).1 hstatus
      · rw [hcopy] at hcopy'
        obtain ⟨rfl, rfl⟩ := Prod.mk.inj (Option.some.inj hcopy')
        rw [hexec] at hsuccess
        rw [← (Prod.mk.inj hsuccess).2, syncSource, halloc, hcallId]
        rfl
  | recoverySource env args ttlMs before after deviceId address callId halloc hcopy hcallId hnamed hcseq
      hlive hsuccess =>
      refine Or.inr ⟨?_, hnamed, hcseq⟩
      rcases allowRecoverySource_cases env args ttlMs before with
        ⟨status, hstatus, hexec⟩ | ⟨device, address', -, -, hcopy', hexec⟩
      · rw [hexec] at hsuccess
        exact absurd (Prod.mk.inj hsuccess).1 hstatus
      · rw [hcopy] at hcopy'
        obtain ⟨rfl, rfl⟩ := Prod.mk.inj (Option.some.inj hcopy')
        rcases hexec with ⟨item, hitem, hzero, -⟩ | hexec | ⟨generation, -, hexec⟩
        · -- a live grant would have been one before the sweep
          obtain ⟨hmem, hkey⟩ := Keyed.get_eq_some hitem
          rw [cleanupRecoverySources_sources] at hmem
          exact absurd hzero (hlive item (List.mem_of_mem_filter hmem) hkey)
        · rw [hexec] at hsuccess
          cases (Prod.mk.inj hsuccess).1
        · rw [hexec] at hsuccess
          rw [← (Prod.mk.inj hsuccess).2]
          simp only [syncSource, halloc, hcallId]
          rfl

/-- The orders behind the sweep are well kept too. -/
theorem Accepts.wellKept (h : Accepts pj before sweep deviceId callId cseq after)
    (hkept : WellKept before.orders) :
    WellKept (sweptOrders before sweep) ∧ WellKept after.orders := by
  have hswept : WellKept (sweptOrders before sweep) := by
    cases h with
    | register | registeredSource => exact hkept
    | recoverySource =>
      exact ⟨nodup_invariant.cleanup hkept.once, callIdsFit_invariant.cleanup hkept.fit⟩
  refine ⟨hswept, ?_⟩
  rcases h.written with ⟨msg, heq, -⟩ | ⟨heq, -⟩
  · rw [heq]
    exact ⟨nodup_invariant.commit _ _ _ _ hswept.once, callIdsFit_invariant.commit _ _ _ _ hswept.fit⟩
  · rw [heq]
    exact ⟨nodup_invariant.sync _ _ _ _ _ hswept.once, callIdsFit_invariant.sync _ _ _ _ _ hswept.fit⟩

/-- An order whose Call-ID fits is one update of the map. -/
theorem Accepts.orderOf (h : Accepts pj before sweep deviceId callId cseq after)
    (hswept : WellKept (sweptOrders before sweep)) (hfits : FitsCallId callId) :
    Auth.orderOf after.orders =
      Function.update (Auth.orderOf (sweptOrders before sweep)) deviceId (some (callId, cseq)) := by
  rcases h.written with ⟨msg, heq, hkey, hexpires, hdevice⟩ | ⟨heq, hnamed, hcseq⟩
  · rw [heq, orderOf_commitRegisterOrder hswept.once ⟨callId, cseq, hkey, hfits⟩ hdevice,
      OrderMap.accept, if_neg hexpires, hkey]
  · rw [heq, orderOf_syncRegisterOrder hfits hnamed hcseq]

/-- Whatever is written, the orders of other devices are those behind the sweep. -/
theorem Accepts.others (h : Accepts pj before sweep deviceId callId cseq after) {other : Bytes}
    (hne : other ≠ deviceId) :
    Auth.orderOf after.orders other = Auth.orderOf (sweptOrders before sweep) other := by
  rcases h.written with ⟨msg, heq, -⟩ | ⟨heq, -⟩
  · rw [heq, orderOf_commitRegisterOrder_ne hne]
  · rw [heq, orderOf_syncRegisterOrder_ne hne]

end accepts

/-! ## What is recorded -/

/-- **An accepted order is recorded exactly if its Call-ID fits and the sweep spares the others.** The
orders are well kept behind every run; and in every such state, for every Call-ID and CSeq, by whichever
way the order is accepted, it is stored, the orders of other devices stay and no device has two, exactly
if the Call-ID has fewer than 256 bytes and no NUL and, where it is a recovery grant, no other device with
an order has a recovery grant that has expired at the time of the call. -/
theorem accepted_order_recorded (pj : Pjsip) :
    (∀ config inputs, WellKept (run pj config inputs).runtime.registerOrders) ∧
    ∀ before sweep deviceId callId cseq after, WellKept before.orders →
      Accepts pj before sweep deviceId callId cseq after →
      (Recorded before.orders after.orders deviceId callId cseq ↔
        FitsCallId callId ∧ ∀ now ∈ sweep, ∀ other ≠ deviceId,
          Auth.orderOf before.orders other ≠ none → Unexpired other now before.sources) := by
  refine ⟨fun config inputs => ⟨nodup_invariant.run pj config inputs,
    callIdsFit_invariant.run pj config inputs⟩, ?_⟩
  intro before sweep deviceId callId cseq after hkept h
  obtain ⟨hswept, hafter⟩ := h.wellKept hkept
  have hspares : (∀ other ≠ deviceId,
      Auth.orderOf (sweptOrders before sweep) other = Auth.orderOf before.orders other) ↔
      ∀ now ∈ sweep, ∀ other ≠ deviceId,
        Auth.orderOf before.orders other ≠ none → Unexpired other now before.sources := by
    cases sweep with
    | none => exact iff_of_true (fun _ _ => rfl) fun _ hnow => absurd hnow.symm (Option.some_ne_none _)
    | some now =>
      constructor
      · intro hspared now' hnow other hne
        obtain rfl := Option.some.inj hnow
        exact (orderOf_cleanup_iff hkept.once).mp (hspared other hne)
      · exact fun hunexpired other hne =>
          (orderOf_cleanup_iff hkept.once).mpr (hunexpired now rfl other hne)
  rw [← hspares]
  constructor
  · intro hrecorded
    refine ⟨hafter.fit.of_orderOf hrecorded.own, fun other hne => ?_⟩
    rw [← h.others hne, hrecorded.others other hne]
  · rintro ⟨hfits, hspared⟩
    refine ⟨?_, fun other hne => ?_, hafter.once⟩
    · rw [h.orderOf hswept hfits, Function.update_self]
    · rw [h.others hne, hspared other hne]

/-- A live grant passes the Call-ID `[2]` and CSeq 5, and another device keeps its order. -/
theorem accepted_order_recorded_short :
    Recorded [⟨[8], [2], 3⟩] [⟨[7], [2], 5⟩, ⟨[8], [2], 3⟩] [7] [2] 5 :=
  have accepts : Accepts samplePjsip ⟨[], [⟨[8], [2], 3⟩]⟩ none [7] [2] 5
      ⟨[⟨.udp, [7], [1], 1, 0⟩], [⟨[7], [2], 5⟩, ⟨[8], [2], 3⟩]⟩ :=
    .registeredSource ⟨true, true, 0, 0⟩
      ⟨sourceSize, abiVersion, .udp, .bytes [7], .bytes [1], .bytes [2], 5⟩ _ _ [7] [1] [2]
      rfl (by decide) rfl (by decide) (by decide) (by decide +kernel)
  ((accepted_order_recorded samplePjsip).2 _ _ _ _ _ _
    ⟨by decide, by rintro order (_ | ⟨_, ⟨⟩⟩); decide⟩ accepts).mpr
    ⟨⟨by decide, by decide⟩, fun _ hnow => absurd hnow.symm (Option.some_ne_none _)⟩

/-- Orders that are accepted and not recorded. A live grant passes a Call-ID of 256 bytes, and an empty
one is stored with CSeq 0; a REGISTER with that Call-ID leaves the same. A recovery grant passes a short
one and takes the order of another device with it, whose grant has expired. -/
theorem accepted_order_lost :
    let long := List.replicate 256 (1 : UInt8)
    let expired : Grants := ⟨[⟨.udp, [8], [1], 1, 5⟩], [⟨[8], [2], 3⟩]⟩
    (Accepts samplePjsip ⟨[], []⟩ none [7] long 1 ⟨[⟨.udp, [7], [1], 1, 0⟩], [⟨[7], [], 0⟩]⟩ ∧
      ¬ Recorded [] [⟨[7], [], 0⟩] [7] long 1) ∧
    commitRegisterOrder true [] [7] (registerMsg [] long 1 60) = [⟨[7], [], 0⟩] ∧
    (Accepts samplePjsip expired (some 9) [7] [3] 1 ⟨[⟨.udp, [7], [1], 1, 14⟩], [⟨[7], [3], 1⟩]⟩ ∧
      ¬ Recorded expired.orders [⟨[7], [3], 1⟩] [7] [3] 1) := by
  intro long expired
  refine ⟨⟨?_, fun h => ?_⟩, by decide +kernel, ?_, fun h => ?_⟩
  · exact .registeredSource ⟨true, true, 0, 0⟩
      ⟨sourceSize, abiVersion, .udp, .bytes [7], .bytes [1], .bytes long, 1⟩ _ _ [7] [1] long
      rfl (by decide) rfl (by decide) (by decide) (by decide +kernel)
  · exact absurd h.own (by decide +kernel)
  · exact .recoverySource ⟨true, true, 9, 9⟩
      ⟨sourceSize, abiVersion, .udp, .bytes [7], .bytes [1], .bytes [3], 1⟩ 5 expired _ [7] [1] [3]
      rfl (by decide) rfl (by decide) (by decide) (by decide) (by decide +kernel)
  · exact absurd (h.others [8] (by decide)) (by decide)

end GmvPjsip.Access
