import GmvPjsip.Auth.Order

/-!
# Registered sources

The list `registered_sources` and the calls by which the application grants, restores and removes
the source of a device. The calls also touch `register_orders`: a grant sets the order of its
device, a removal and the expiry of a recovery grant forget it.

* `Grants` is the pair of lists. `allowRegisteredSource`, `allowRecoverySource`,
  `removeRegisteredSource` and `cleanupRecoverySources` are the shim's functions on it, and
  `registeredSourceAllowed` is the check of a request against it.
* `allowRegisteredSource_cases`, `allowRecoverySource_cases`, `removeRegisteredSource_cases`: all
  that a call can do.
-/

namespace GmvPjsip.Auth

open GmvPjsip.Lib

/-- `GMV_SIP_ABI_VERSION`. -/
def abiVersion : ℕ := 13

/-- `sizeof(gmv_sip_registered_source_t)`, which is also `sizeof(gmv_sip_recovery_source_t)`. -/
def sourceSize : ℕ := 72

/-- A `gmv_registered_source_t`. A live grant has a recovery expiry of 0. -/
structure RegisteredSource where
  transport : SipTransport
  deviceId : Bytes
  remoteAddress : Bytes
  generation : ℕ
  recoveryExpiresAtMs : ℕ
  deriving DecidableEq, Repr

/-- The sources and the orders of a runtime. -/
structure Grants where
  sources : List RegisteredSource
  orders : List RegisterOrder
  deriving DecidableEq, Repr

/-- A `gmv_sip_registered_source_t`, and a `gmv_sip_recovery_source_t` but for its `ttl_ms`. A
transport that is neither UDP nor TCP is `unknown`. -/
structure SourceArgs where
  size : ℕ
  version : ℕ
  transport : SipTransport
  deviceId : StringView
  remoteAddress : StringView
  registrationCallId : StringView
  registrationCseq : ℕ
  deriving DecidableEq, Repr

/-- The allocations and the clock readings of a grant call. -/
structure GrantEnv where
  itemCalloc : Bool
  orderCalloc : Bool
  cleanupNow : ℕ
  grantNow : ℕ
  deriving DecidableEq, Repr

/-- A view that points to at least one byte. -/
def StringView.isSet (view : StringView) : Bool :=
  match view with
  | .null _ => false
  | .bytes data => decide (0 < data.length)

/-- The checks that the two grant calls share.
Source: `shim.c`, `gmv_sip_runtime_allow_registered_source`,
`gmv_sip_runtime_allow_recovery_source` -/
def sourceArgsValid (args : SourceArgs) : Bool :=
  decide (sourceSize ≤ args.size) && decide (args.version = abiVersion) &&
    decide (args.transport ≠ .unknown) && StringView.isSet args.deviceId &&
    StringView.isSet args.remoteAddress

/-- The device and the address of a grant call, if they fit their buffers. -/
def copySource (args : SourceArgs) : Option (Bytes × Bytes) := do
  let deviceId ← copyView 128 args.deviceId
  let remoteAddress ← copyView 64 args.remoteAddress
  return (deviceId, remoteAddress)

/-- Unlink the recovery grants that have expired, each with the order of its device.
Source: `shim.c`, `gmv_cleanup_recovery_sources` -/
def cleanupRecoverySources (now : ℕ) : List RegisteredSource → List RegisterOrder → Grants
  | [], orders => ⟨[], orders⟩
  | source :: rest, orders =>
    if 0 < source.recoveryExpiresAtMs ∧ source.recoveryExpiresAtMs ≤ now then
      cleanupRecoverySources now rest (removeRegisterOrder orders source.deviceId)
    else
      let grants := cleanupRecoverySources now rest orders
      { grants with sources := source :: grants.sources }

theorem cleanupRecoverySources_nil (now : ℕ) (orders : List RegisterOrder) :
    cleanupRecoverySources now [] orders = ⟨[], orders⟩ := rfl

/-- Set the order of the device of a grant call. -/
def syncSource (env : GrantEnv) (args : SourceArgs) (deviceId : Bytes)
    (orders : List RegisterOrder) : List RegisterOrder :=
  syncRegisterOrder env.orderCalloc orders deviceId args.registrationCallId args.registrationCseq

/-- Grant a live source to a device.
Source: `shim.c`, `gmv_sip_runtime_allow_registered_source` -/
def allowRegisteredSource (env : GrantEnv) (args : SourceArgs) (grants : Grants) : PjStatus × Grants :=
  if !sourceArgsValid args then (.einval, grants)
  else match copySource args with
    | none => (.etoosmall, grants)
    | some (deviceId, remoteAddress) =>
      match Keyed.get RegisteredSource.deviceId deviceId grants.sources with
      | some item =>
        let item' := { item with
          transport := args.transport
          generation := u64 (item.generation + 1)
          recoveryExpiresAtMs := 0
          remoteAddress := remoteAddress }
        (.success, {
          sources := Keyed.set RegisteredSource.deviceId deviceId item' grants.sources
          orders := syncSource env args deviceId grants.orders })
      | none =>
        if !env.itemCalloc then (.enomem, grants)
        else (.success, {
          sources := ⟨args.transport, deviceId, remoteAddress, 1, 0⟩ :: grants.sources
          orders := syncSource env args deviceId grants.orders })

/-- Grant a device a source to recover from, for a limited time, unless it has a live one. The
order is set before the item is allocated.
Source: `shim.c`, `gmv_sip_runtime_allow_recovery_source` -/
def allowRecoverySource (env : GrantEnv) (args : SourceArgs) (ttlMs : ℕ) (grants : Grants) :
    PjStatus × Grants :=
  if !sourceArgsValid args || decide (ttlMs = 0) then (.einval, grants)
  else match copySource args with
    | none => (.etoosmall, grants)
    | some (deviceId, remoteAddress) =>
      let grants := cleanupRecoverySources env.cleanupNow grants.sources grants.orders
      match Keyed.get RegisteredSource.deviceId deviceId grants.sources with
      | some item =>
        if item.recoveryExpiresAtMs = 0 then (.success, grants)
        else
          let item' := { item with
            transport := args.transport
            generation := u64 (item.generation + 1)
            recoveryExpiresAtMs := u64 (env.grantNow + ttlMs)
            remoteAddress := remoteAddress }
          (.success, {
            sources := Keyed.set RegisteredSource.deviceId deviceId item' grants.sources
            orders := syncSource env args deviceId grants.orders })
      | none =>
        let orders := syncSource env args deviceId grants.orders
        if !env.itemCalloc then (.enomem, { grants with orders := orders })
        else
          let item : RegisteredSource :=
            ⟨args.transport, deviceId, remoteAddress, 1, u64 (env.grantNow + ttlMs)⟩
          (.success, { sources := item :: grants.sources, orders := orders })

/-- Remove every source of a device and its order.
Source: `shim.c`, `gmv_sip_runtime_remove_registered_source` -/
def removeRegisteredSource (deviceId : StringView) (grants : Grants) : PjStatus × Grants :=
  if !StringView.isSet deviceId then (.einval, grants)
  else match copyView 128 deviceId with
    | none => (.etoosmall, grants)
    | some deviceId => (.success, {
        sources := grants.sources.filter (·.deviceId ≠ deviceId)
        orders := removeRegisterOrder grants.orders deviceId })

/-! ## What a call does -/

theorem copyView_ne_nil {capacity : ℕ} {view : StringView} {text : Bytes}
    (hset : StringView.isSet view = true) (hcopy : copyView capacity view = some text) :
    text ≠ [] := by
  cases view with
  | null => cases hset
  | bytes =>
    rw [(copyView_bytes_eq_some hcopy).1]
    exact List.length_pos_iff.mp (of_decide_eq_true hset)

theorem deviceId_ne_nil {args : SourceArgs} {deviceId remoteAddress : Bytes}
    (hvalid : sourceArgsValid args = true)
    (hcopy : copySource args = some (deviceId, remoteAddress)) : deviceId ≠ [] := by
  simp only [sourceArgsValid, Bool.and_eq_true] at hvalid
  obtain ⟨copied, hcopied, heq⟩ := Option.bind_eq_some_iff.mp hcopy
  obtain ⟨address, -, hpair⟩ := Option.bind_eq_some_iff.mp heq
  obtain ⟨rfl, rfl⟩ := Prod.mk.inj (Option.some.inj hpair)
  exact copyView_ne_nil hvalid.1.2 hcopied

/-- **A live grant either does nothing or succeeds.** -/
theorem allowRegisteredSource_cases (env : GrantEnv) (args : SourceArgs) (grants : Grants) :
    (∃ status, status ≠ .success ∧ allowRegisteredSource env args grants = (status, grants)) ∨
    ∃ deviceId remoteAddress generation, deviceId ≠ [] ∧
      copySource args = some (deviceId, remoteAddress) ∧
      allowRegisteredSource env args grants = (.success, {
        sources := Keyed.put RegisteredSource.deviceId
          ⟨args.transport, deviceId, remoteAddress, generation, 0⟩ grants.sources
        orders := syncSource env args deviceId grants.orders }) := by
  unfold allowRegisteredSource
  by_cases hvalid : sourceArgsValid args = true
  · rw [hvalid, Bool.not_true, if_neg Bool.false_ne_true]
    rcases hcopy : copySource args with _ | ⟨deviceId, remoteAddress⟩
    · exact Or.inl ⟨.etoosmall, PjStatus.noConfusion, rfl⟩
    · have hnamed := deviceId_ne_nil hvalid hcopy
      dsimp only
      rcases hget : Keyed.get RegisteredSource.deviceId deviceId grants.sources with _ | item
      · by_cases hcalloc : env.itemCalloc = true
        · refine Or.inr ⟨deviceId, remoteAddress, 1, hnamed, rfl, ?_⟩
          rw [Keyed.put_of_none hget, hcalloc]
          rfl
        · refine Or.inl ⟨.enomem, PjStatus.noConfusion, ?_⟩
          rw [Bool.eq_false_iff.mpr hcalloc]
          rfl
      · obtain rfl : item.deviceId = deviceId := (Keyed.get_eq_some hget).2
        refine Or.inr ⟨item.deviceId, remoteAddress, u64 (item.generation + 1), hnamed, rfl, ?_⟩
        simp only [Keyed.put, hget]
  · rw [Bool.eq_false_iff.mpr hvalid]
    exact Or.inl ⟨.einval, PjStatus.noConfusion, rfl⟩

/-- **What a recovery grant does.** It is refused, or it sweeps the list and then leaves a live grant
as it is, runs out of memory with the order already set, or succeeds. -/
theorem allowRecoverySource_cases (env : GrantEnv) (args : SourceArgs) (ttlMs : ℕ) (grants : Grants) :
    (∃ status, status ≠ .success ∧ allowRecoverySource env args ttlMs grants = (status, grants)) ∨
    ∃ deviceId remoteAddress, deviceId ≠ [] ∧ 0 < ttlMs ∧
      copySource args = some (deviceId, remoteAddress) ∧
      let swept := cleanupRecoverySources env.cleanupNow grants.sources grants.orders
      let orders := syncSource env args deviceId swept.orders
      (∃ item, Keyed.get RegisteredSource.deviceId deviceId swept.sources = some item ∧
        item.recoveryExpiresAtMs = 0 ∧
        allowRecoverySource env args ttlMs grants = (.success, swept)) ∨
      allowRecoverySource env args ttlMs grants = (.enomem, { swept with orders := orders }) ∨
      ∃ generation, (∀ item, Keyed.get RegisteredSource.deviceId deviceId swept.sources =
          some item → item.recoveryExpiresAtMs ≠ 0) ∧
        allowRecoverySource env args ttlMs grants = (.success, {
          sources := Keyed.put RegisteredSource.deviceId
            ⟨args.transport, deviceId, remoteAddress, generation, u64 (env.grantNow + ttlMs)⟩
            swept.sources
          orders := orders }) := by
  unfold allowRecoverySource
  by_cases hvalid : sourceArgsValid args = true
  · by_cases httl : ttlMs = 0
    · rw [hvalid, decide_eq_true httl]
      exact Or.inl ⟨.einval, PjStatus.noConfusion, rfl⟩
    · rw [hvalid, decide_eq_false httl, Bool.not_true, Bool.or_false, if_neg Bool.false_ne_true]
      rcases hcopy : copySource args with _ | ⟨deviceId, remoteAddress⟩
      · exact Or.inl ⟨.etoosmall, PjStatus.noConfusion, rfl⟩
      · refine Or.inr ⟨deviceId, remoteAddress, deviceId_ne_nil hvalid hcopy,
          Nat.pos_iff_ne_zero.mpr httl, rfl, ?_⟩
        dsimp only
        generalize cleanupRecoverySources env.cleanupNow grants.sources grants.orders = swept
        rcases hget : Keyed.get RegisteredSource.deviceId deviceId swept.sources with _ | item
        · by_cases hcalloc : env.itemCalloc = true
          · refine Or.inr (Or.inr ⟨1, ?_, ?_⟩)
            · intro other hother
              cases hother
            · rw [Keyed.put_of_none hget, hcalloc]
              rfl
          · refine Or.inr (Or.inl ?_)
            rw [Bool.eq_false_iff.mpr hcalloc]
            rfl
        · obtain rfl : item.deviceId = deviceId := (Keyed.get_eq_some hget).2
          by_cases hlive : item.recoveryExpiresAtMs = 0
          · exact Or.inl ⟨item, rfl, hlive, if_pos hlive⟩
          · refine Or.inr (Or.inr ⟨u64 (item.generation + 1), ?_, ?_⟩)
            · intro other hother
              exact Option.some.inj hother ▸ hlive
            · simp only [Keyed.put, hget]
              exact if_neg hlive
  · rw [Bool.eq_false_iff.mpr hvalid]
    exact Or.inl ⟨.einval, PjStatus.noConfusion, rfl⟩

/-- A removal either does nothing or succeeds. -/
theorem removeRegisteredSource_cases (view : StringView) (grants : Grants) :
    (∃ status, status ≠ .success ∧ removeRegisteredSource view grants = (status, grants)) ∨
    ∃ deviceId, copyView 128 view = some deviceId ∧ removeRegisteredSource view grants = (.success, {
        sources := grants.sources.filter (·.deviceId ≠ deviceId)
        orders := removeRegisterOrder grants.orders deviceId }) := by
  unfold removeRegisteredSource
  by_cases hset : StringView.isSet view = true
  · rw [hset, Bool.not_true, if_neg Bool.false_ne_true]
    rcases hcopy : copyView 128 view with _ | deviceId
    · exact Or.inl ⟨.etoosmall, PjStatus.noConfusion, rfl⟩
    · exact Or.inr ⟨deviceId, rfl, rfl⟩
  · rw [Bool.eq_false_iff.mpr hset]
    exact Or.inl ⟨.einval, PjStatus.noConfusion, rfl⟩

/-! ## Checking a request -/

/-- Source: `shim.c`, `gmv_transport_and_source_match` -/
def transportAndSourceMatch (expectedTransport : SipTransport) (expectedAddress : Bytes)
    (actualTransport : SipTransport) (actualAddress : Bytes) : Bool :=
  decide (expectedTransport = actualTransport) && decide (expectedAddress = actualAddress)

/-- What the check asks of the source it has found for a device. -/
def RegisteredSource.admits (source : RegisteredSource) (transport : SipTransport)
    (remoteAddress : Bytes) (allowRecovery : Bool) : Bool :=
  (decide (source.recoveryExpiresAtMs = 0) || allowRecovery) &&
    transportAndSourceMatch source.transport source.remoteAddress transport remoteAddress

/-- Whether a device may send from an address, once expired recovery grants are unlinked.
Source: `shim.c`, `gmv_registered_source_allowed` -/
def registeredSourceAllowed (now : ℕ) (transport : SipTransport) (remoteAddress deviceId : Bytes)
    (allowRecovery : Bool) (grants : Grants) : Bool × Grants :=
  if deviceId.length = 0 then (false, grants)
  else
    let grants := cleanupRecoverySources now grants.sources grants.orders
    (grants.sources.any fun source => decide (deviceId = source.deviceId) &&
      source.admits transport remoteAddress allowRecovery, grants)

end GmvPjsip.Auth
