import GmvPjsip.Access.Grants
import GmvPjsip.Access.Permits

/-!
# Calls that fail

Four calls write the three lists of grants. A call that returns an error is to leave them as they were,
but for grants that have expired, which a recovery grant sweeps first.

* `GrantCall` is one of the calls and `GrantCall.exec` its effect on `Lists`; `GrantCall.sweep` is what
  the sweep at its beginning makes of them.
* `GrantCall.Atomic`: a call leaves the lists as they were or swept. `GrantCall.Strays`: a recovery grant
  passes an order that is not the one the device has, and there is no memory for the grant.
* `get_cleanup`: the order a device has once its expired grants are swept.
* `failing_call_atomic`: a call that fails is atomic exactly if it does not stray.
  `recovery_without_memory_strays` is a call that does.
-/

namespace GmvPjsip.Access

open GmvPjsip.Auth GmvPjsip.Lib

/-- The lists of a runtime that grants stand in. -/
structure Lists where
  grants : Grants
  allows : List InviteAllow
  deriving DecidableEq, Repr

/-- A call of the application, with the allocations and the clock it meets. -/
inductive GrantCall
  | allowRegisteredSource (env : GrantEnv) (args : SourceArgs)
  | allowRecoverySource (env : GrantEnv) (args : SourceArgs) (ttlMs : ℕ)
  | removeRegisteredSource (deviceId : StringView)
  | allowIncomingInvite (env : PermitEnv) (args : InviteAllowArgs)

/-- What a call returns and does to the lists. -/
def GrantCall.exec (lists : Lists) : GrantCall → PjStatus × Lists
  | .allowRegisteredSource env args =>
    let (status, grants) := Auth.allowRegisteredSource env args lists.grants
    (status, { lists with grants := grants })
  | .allowRecoverySource env args ttlMs =>
    let (status, grants) := Auth.allowRecoverySource env args ttlMs lists.grants
    (status, { lists with grants := grants })
  | .removeRegisteredSource deviceId =>
    let (status, grants) := Auth.removeRegisteredSource deviceId lists.grants
    (status, { lists with grants := grants })
  | .allowIncomingInvite env args =>
    let (status, allows) := Access.allowIncomingInvite env args lists.allows
    (status, { lists with allows := allows })

/-- The lists without the grants that have expired when the call sweeps, if it does, and without their
orders. -/
def GrantCall.sweep (lists : Lists) : GrantCall → Lists
  | .allowRecoverySource env _ _ =>
    { lists with
      grants := cleanupRecoverySources env.cleanupNow lists.grants.sources lists.grants.orders }
  | _ => lists

/-- A call leaves the lists as they were, or swept. -/
def GrantCall.Atomic (lists : Lists) (call : GrantCall) : Prop :=
  (call.exec lists).2 = lists ∨ (call.exec lists).2 = call.sweep lists

/-- A call leaves the permits as they were, and the sources as they were or swept. -/
structure GrantCall.SparesGrants (lists : Lists) (call : GrantCall) : Prop where
  allows : (call.exec lists).2.allows = lists.allows
  sources : (call.exec lists).2.grants.sources = lists.grants.sources ∨
    (call.exec lists).2.grants.sources = (call.sweep lists).grants.sources

/-- The order of a device that is left once its expired grants are swept: each of them takes one order
of the device with it. -/
def orderLeft (now : ℕ) (grants : Grants) (deviceId : Bytes) : Option RegisterOrder :=
  ((grants.orders.filter fun order => order.deviceId = deviceId).drop
    (grants.sources.countP fun source => source.deviceId = deviceId ∧ ¬kept now source = true)).head?

/-- A source call passes a Call-ID and a CSeq to a device with the order `stored`, and they are noted: a
device without an order gets a record if there is memory for one, and the order of a device that has one
is overwritten with another if the Call-ID fits. -/
def PassesOrder (env : GrantEnv) (args : SourceArgs) (stored : Option RegisterOrder) : Prop :=
  (∃ callId, args.registrationCallId = .bytes callId ∧ callId ≠ []) ∧ args.registrationCseq ≠ 0 ∧
    match stored with
    | none => env.orderCalloc = true
    | some order => ∃ callId, copyView callIdCapacity args.registrationCallId = some callId ∧
        (callId, args.registrationCseq) ≠ (order.callId, order.cseq)

/-- A recovery grant passes the checks, the grants of the device have all expired, there is no memory for
a new one, and the call passes an order other than the one that is left. -/
def GrantCall.Strays (lists : Lists) : GrantCall → Prop
  | .allowRecoverySource env args ttlMs =>
    sourceArgsValid args = true ∧ ttlMs ≠ 0 ∧ env.itemCalloc = false ∧
      ∃ deviceId address, copySource args = some (deviceId, address) ∧
        (∀ source ∈ lists.grants.sources, source.deviceId = deviceId →
          ¬kept env.cleanupNow source = true) ∧
        PassesOrder env args (orderLeft env.cleanupNow lists.grants deviceId)
  | _ => False

/-! ## Sweeps -/

/-- A sweep that drops no grant drops no order. -/
theorem cleanupRecoverySources_of_sources_eq {now : ℕ} {sources : List RegisteredSource}
    {orders : List RegisterOrder}
    (h : (cleanupRecoverySources now sources orders).sources = sources) :
    cleanupRecoverySources now sources orders = ⟨sources, orders⟩ := by
  induction sources generalizing orders with
  | nil => exact cleanupRecoverySources_nil now orders
  | cons source rest ih =>
    rw [cleanupRecoverySources] at h ⊢
    by_cases hexpired : 0 < source.recoveryExpiresAtMs ∧ source.recoveryExpiresAtMs ≤ now
    · -- what is left of the rest is too short to be the whole list
      rw [if_pos hexpired, cleanupRecoverySources_sources] at h
      have hle := List.length_filter_le (kept now) rest
      rw [h, List.length_cons] at hle
      exact absurd hle (Nat.not_succ_le_self _)
    · rw [if_neg hexpired] at h ⊢
      rw [ih (List.cons.inj h).2]

/-- What a sweep leaves of the orders of a device. -/
theorem filter_cleanup (now : ℕ) (sources : List RegisteredSource) (orders : List RegisterOrder)
    (deviceId : Bytes) :
    ((cleanupRecoverySources now sources orders).orders.filter fun order => order.deviceId = deviceId) =
      (orders.filter fun order => order.deviceId = deviceId).drop
        (sources.countP fun source => source.deviceId = deviceId ∧ ¬kept now source = true) := by
  induction sources generalizing orders with
  | nil => rfl
  | cons source rest ih =>
    rw [cleanupRecoverySources, List.countP_cons]
    by_cases hexpired : 0 < source.recoveryExpiresAtMs ∧ source.recoveryExpiresAtMs ≤ now
    · have hdue : ¬kept now source = true := by simp [kept, hexpired]
      rw [if_pos hexpired, ih, removeRegisterOrder, Keyed.filter_erase, List.drop_drop]
      congr 1
      by_cases hown : source.deviceId = deviceId
      · simp [hown, hdue, Nat.add_comm]
      · simp [hown]
    · have hkept : kept now source = true := by
        rw [kept, decide_eq_false hexpired]
        rfl
      rw [if_neg hexpired]
      simp only [hkept, not_true_eq_false, and_false, decide_false, Bool.false_eq_true, if_false,
        Nat.add_zero]
      exact ih orders

/-- **The order of a device behind a sweep**, in terms of the lists before it. -/
theorem get_cleanup (now : ℕ) (grants : Grants) (deviceId : Bytes) :
    Keyed.get RegisterOrder.deviceId deviceId
      (cleanupRecoverySources now grants.sources grants.orders).orders =
        orderLeft now grants deviceId := by
  rw [Keyed.get_eq_head?, filter_cleanup]
  rfl

/-- A sweep leaves a device without a grant exactly if all its grants have expired. -/
theorem get_swept_eq_none {now : ℕ} {grants : Grants} {deviceId : Bytes} :
    Keyed.get RegisteredSource.deviceId deviceId
      (cleanupRecoverySources now grants.sources grants.orders).sources = none ↔
    ∀ source ∈ grants.sources, source.deviceId = deviceId → ¬kept now source = true := by
  rw [Keyed.get_eq_none_iff, cleanupRecoverySources_sources, List.mem_map]
  simp only [List.mem_filter, not_exists, not_and]
  exact forall_congr' fun source => ⟨fun h hmem hown hkept => h ⟨hmem, hkept⟩ hown,
    fun h hmem hown => h hmem.1 hown hmem.2⟩

variable {env : GrantEnv} {args : SourceArgs}

/-- The order of a source call changes the list exactly if it is noted. -/
theorem syncSource_ne_iff {deviceId : Bytes} {orders : List RegisterOrder} :
    syncSource env args deviceId orders ≠ orders ↔
      PassesOrder env args (Keyed.get RegisterOrder.deviceId deviceId orders) := by
  unfold syncSource PassesOrder
  cases hview : args.registrationCallId with
  | null =>
    refine iff_of_false (fun h => h rfl) ?_
    rintro ⟨⟨callId, heq, -⟩, -⟩
    cases heq
  | bytes callId =>
    by_cases hunset : callId = [] ∨ args.registrationCseq = 0
    · have hunset' : (StringView.bytes callId).len = 0 ∨ args.registrationCseq = 0 :=
        hunset.imp_left List.length_eq_zero_iff.mpr
      simp only [syncRegisterOrder, if_pos hunset']
      refine iff_of_false (fun h => h rfl) ?_
      rintro ⟨⟨callId', heq, hnamed⟩, hcseq, -⟩
      obtain rfl := StringView.bytes.inj heq
      exact hunset.elim hnamed hcseq
    obtain ⟨hnamed, hcseq⟩ := not_or.mp hunset
    simp only [syncRegisterOrder, if_neg (not_unset hnamed hcseq)]
    rw [and_iff_right ⟨callId, rfl, hnamed⟩, and_iff_right hcseq]
    cases hget : Keyed.get RegisterOrder.deviceId deviceId orders with
    | none =>
      cases hcalloc : env.orderCalloc with
      | false => simp
      | true =>
        refine iff_of_true (fun heq => ?_) rfl
        -- a record was added, whether the Call-ID fits or not
        have hlength := congrArg (fun orders => (orders.map RegisterOrder.deviceId).length) heq
        simp [deviceIds_writeOrder] at hlength
    | some order =>
      obtain ⟨device, callId₀, cseq₀⟩ := order
      obtain rfl : device = deviceId := (Keyed.get_eq_some hget).2
      simp only [writeOrder]
      cases hcopy : copyView callIdCapacity (.bytes callId) with
      | none => simp
      | some text =>
        simp [Keyed.set_eq_self_iff hget]

/-! ## Each call -/

/-- What a recovery grant does when it fails: nothing, or a sweep and the order. -/
theorem allowRecoverySource_failed {ttlMs : ℕ} {grants : Grants}
    (herror : (allowRecoverySource env args ttlMs grants).1 ≠ .success) :
    let swept := cleanupRecoverySources env.cleanupNow grants.sources grants.orders
    ((allowRecoverySource env args ttlMs grants).2 = grants ∧
      ¬(sourceArgsValid args = true ∧ ttlMs ≠ 0 ∧ ∃ source, copySource args = some source)) ∨
    ∃ deviceId address, sourceArgsValid args = true ∧ ttlMs ≠ 0 ∧ env.itemCalloc = false ∧
      copySource args = some (deviceId, address) ∧
      Keyed.get RegisteredSource.deviceId deviceId swept.sources = none ∧
      (allowRecoverySource env args ttlMs grants).2 =
        { swept with orders := syncSource env args deviceId swept.orders } := by
  unfold allowRecoverySource at herror ⊢
  dsimp only at herror ⊢
  generalize cleanupRecoverySources env.cleanupNow grants.sources grants.orders = swept at herror ⊢
  by_cases hrefused : (!sourceArgsValid args || decide (ttlMs = 0)) = true
  · rw [if_pos hrefused]
    refine Or.inl ⟨rfl, ?_⟩
    rintro ⟨hvalid, httl, -⟩
    rw [hvalid, decide_eq_false httl] at hrefused
    cases hrefused
  rw [if_neg hrefused] at herror ⊢
  obtain ⟨hvalid, httl⟩ : sourceArgsValid args = true ∧ ttlMs ≠ 0 := by
    simpa only [Bool.or_eq_true, Bool.not_eq_true', decide_eq_true_eq, not_or,
      Bool.not_eq_false] using hrefused
  rcases hcopy : copySource args with _ | ⟨deviceId, address⟩
  · refine Or.inl ⟨rfl, ?_⟩
    rintro ⟨-, -, source, hsource⟩
    cases hsource
  · refine Or.inr ⟨deviceId, address, hvalid, httl, ?_⟩
    rw [hcopy] at herror
    dsimp only at herror ⊢
    rcases hget : Keyed.get RegisteredSource.deviceId deviceId swept.sources with _ | item
    · rw [hget] at herror
      cases hcalloc : env.itemCalloc with
      | true =>
        rw [hcalloc] at herror
        exact absurd rfl herror
      | false => exact ⟨rfl, rfl, rfl, rfl⟩
    · rw [hget] at herror
      dsimp only at herror
      split_ifs at herror
      · exact absurd rfl herror
      · exact absurd rfl herror

/-- A permit that fails changes nothing. -/
theorem allowIncomingInvite_failed {env : PermitEnv} {args : InviteAllowArgs}
    {allows : List InviteAllow} (herror : (allowIncomingInvite env args allows).1 ≠ .success) :
    (allowIncomingInvite env args allows).2 = allows := by
  unfold allowIncomingInvite at herror ⊢
  split_ifs at herror ⊢
  · rfl
  · rfl
  · rcases hcopy : copyInviteAllow args with _ | ⟨targetId, sourceId, remoteAddress⟩
    · rfl
    · rw [hcopy] at herror
      exact absurd rfl herror

/-- A recovery grant that fails leaves the lists as they were or swept, unless it strays. -/
theorem recovery_atomic {lists : Lists} {ttlMs : ℕ}
    (herror : ((GrantCall.allowRecoverySource env args ttlMs).exec lists).1 ≠ .success) :
    (GrantCall.allowRecoverySource env args ttlMs).Atomic lists ↔
      ¬(GrantCall.allowRecoverySource env args ttlMs).Strays lists := by
  obtain ⟨grants, allows⟩ := lists
  simp only [GrantCall.Atomic, GrantCall.exec, GrantCall.sweep, GrantCall.Strays, Lists.mk.injEq,
    and_true] at herror ⊢
  simp only [← get_cleanup, ← get_swept_eq_none, ← syncSource_ne_iff]
  rcases allowRecoverySource_failed herror with
    ⟨hsame, hrefused⟩ | ⟨deviceId, address, hvalid, httl, hcalloc, hcopy, hget, hexec⟩
  · refine iff_of_true (Or.inl hsame) ?_
    rintro ⟨hvalid, httl, -, deviceId, address, hcopy, -⟩
    exact hrefused ⟨hvalid, httl, _, hcopy⟩
  rw [hexec]
  generalize hswept : cleanupRecoverySources env.cleanupNow grants.sources grants.orders = swept at *
  constructor
  · rintro hatomic ⟨-, -, -, deviceId', address', hcopy', -, hsync⟩
    rw [hcopy] at hcopy'
    obtain ⟨rfl, rfl⟩ := Prod.mk.inj (Option.some.inj hcopy')
    rcases hatomic with hsame | hsame
    · -- lists that are as before were not swept either
      have hsources : swept.sources = grants.sources := by rw [← hsame]
      rw [← hswept] at hsources
      rw [cleanupRecoverySources_of_sources_eq hsources] at hswept
      rw [← hswept] at hsame hsync
      exact hsync (congrArg Grants.orders hsame)
    · exact hsync (congrArg Grants.orders hsame)
  · intro hstrays
    refine Or.inr ?_
    have hsync : syncSource env args deviceId swept.orders = swept.orders := by
      by_contra hsync
      exact hstrays ⟨hvalid, httl, hcalloc, deviceId, address, hcopy, hget, hsync⟩
    rw [hsync]

/-! ## All calls -/

/-- **A call that fails leaves the lists as they were or swept, unless it strays.** For every state of
the lists and every call, whichever allocations fail. Even then only the orders are not: the permits are
as before and the grants are as before or swept. -/
theorem failing_call_atomic (lists : Lists) (call : GrantCall)
    (herror : (call.exec lists).1 ≠ .success) :
    (call.Atomic lists ↔ ¬call.Strays lists) ∧ call.SparesGrants lists := by
  have hsame : (call.exec lists).2 = lists → ¬call.Strays lists →
      (call.Atomic lists ↔ ¬call.Strays lists) ∧ call.SparesGrants lists := by
    intro hsame hstrays
    exact ⟨iff_of_true (Or.inl hsame) hstrays, congrArg Lists.allows hsame,
      Or.inl (congrArg (fun lists => lists.grants.sources) hsame)⟩
  cases call with
  | allowRegisteredSource env args =>
    refine hsame ?_ id
    rcases allowRegisteredSource_cases env args lists.grants with
      ⟨status, -, hexec⟩ | ⟨deviceId, address, generation, -, -, hexec⟩
    · simp only [GrantCall.exec, hexec]
    · simp only [GrantCall.exec, hexec] at herror
      exact absurd rfl herror
  | removeRegisteredSource view =>
    refine hsame ?_ id
    rcases removeRegisteredSource_cases view lists.grants with
      ⟨status, -, hexec⟩ | ⟨deviceId, -, hexec⟩
    · simp only [GrantCall.exec, hexec]
    · simp only [GrantCall.exec, hexec] at herror
      exact absurd rfl herror
  | allowIncomingInvite env args =>
    refine hsame ?_ id
    show { lists with allows := (Access.allowIncomingInvite env args lists.allows).2 } = lists
    rw [allowIncomingInvite_failed herror]
  | allowRecoverySource env args ttlMs =>
    refine ⟨recovery_atomic herror, rfl, ?_⟩
    rcases allowRecoverySource_failed herror with
      ⟨hsame, -⟩ | ⟨deviceId, address, -, -, -, -, -, hexec⟩
    · exact Or.inl (congrArg Grants.sources hsame)
    · refine Or.inr ?_
      show (Auth.allowRecoverySource env args ttlMs lists.grants).2.sources = _
      rw [hexec]
      rfl

/-- A live grant of a device has no memory. -/
theorem failing_call_atomic_registered : ((GrantCall.allowRegisteredSource ⟨false, true, 0, 0⟩
      ⟨sourceSize, abiVersion, .udp, .bytes [7], .bytes [1], .bytes [2], 5⟩).exec ⟨⟨[], []⟩, []⟩).2 =
        ⟨⟨[], []⟩, []⟩ :=
  ((failing_call_atomic ⟨⟨[], []⟩, []⟩ (.allowRegisteredSource ⟨false, true, 0, 0⟩
    ⟨sourceSize, abiVersion, .udp, .bytes [7], .bytes [1], .bytes [2], 5⟩)
    (by decide +kernel)).1.mpr id).elim id id

/-- A recovery grant of a device without one has no memory, and the order stays. -/
theorem recovery_without_memory_strays : (GrantCall.allowRecoverySource ⟨false, true, 0, 0⟩
      ⟨sourceSize, abiVersion, .udp, .bytes [7], .bytes [1], .bytes [2], 5⟩ 60000).exec
        ⟨⟨[], []⟩, []⟩ = (.enomem, ⟨⟨[], [⟨[7], [2], 5⟩]⟩, []⟩) := by
  decide +kernel

end GmvPjsip.Access
