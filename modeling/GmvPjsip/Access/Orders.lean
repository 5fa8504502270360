import GmvPjsip.Access.Grants
import GmvPjsip.Auth.Moves

/-!
# What holds of the orders in every run

The list `register_orders` is written by three functions: an accepted REGISTER notes its order, a source
call passes one, and an order is unlinked where its device or its grant goes. What these three keep,
every run keeps.

* `OrderInvariant` is such a property, and `OrderInvariant.run` the rule.
* `callIdsFit_invariant`: a Call-ID in the list fits its record. `nodup_invariant`: no device has two
  orders.
* `orderOf_cleanup_iff`: when a sweep leaves the order of a device.
-/

namespace GmvPjsip.Access

open GmvPjsip.Auth GmvPjsip.Lib

/-! ## Inputs as operations -/

/-- The operation on the sources that an input is. -/
def grantOp : Input → Option GrantOp
  | .cleanup now => some (.cleanup now)
  | .allowRegisteredSource env args => some (.allowRegisteredSource env args)
  | .allowRecoverySource env args ttlMs => some (.allowRecoverySource env args ttlMs)
  | .removeRegisteredSource deviceId => some (.removeRegisteredSource deviceId)
  | _ => none

/-- The lists behind an input are those of the operation that it is. -/
theorem edits_eq (grants : Grants) (input : Input) :
    input.edits grants = (grantOp input).map fun op => (op.exec grants).2 := by
  cases input <;> rfl

/-! ## Invariants of the orders -/

/-- A property that every write to the orders keeps. -/
structure OrderInvariant (P : List RegisterOrder → Prop) : Prop where
  nil : P []
  erase : ∀ orders deviceId, P orders → P (Keyed.erase RegisterOrder.deviceId deviceId orders)
  commit : ∀ callocOk orders deviceId msg, P orders →
    P (commitRegisterOrder callocOk orders deviceId msg)
  sync : ∀ callocOk orders deviceId view cseq, P orders →
    P (syncRegisterOrder callocOk orders deviceId view cseq)

namespace OrderInvariant

variable {P : List RegisterOrder → Prop}

theorem cleanup (hP : OrderInvariant P) {now : ℕ} {sources : List RegisteredSource}
    {orders : List RegisterOrder} (h : P orders) :
    P (cleanupRecoverySources now sources orders).orders := by
  induction sources generalizing orders with
  | nil => exact h
  | cons source rest ih =>
    unfold cleanupRecoverySources
    split_ifs
    · exact ih (hP.erase orders source.deviceId h)
    · exact ih h

/-- An operation keeps the invariant. -/
theorem exec (hP : OrderInvariant P) {grants : Grants} (h : P grants.orders) (op : GrantOp) :
    P (op.exec grants).2.orders := by
  have hsync : ∀ {env : GrantEnv} {args : SourceArgs} {deviceId : Bytes}
      {orders : List RegisterOrder}, P orders → P (syncSource env args deviceId orders) :=
    fun horders => hP.sync _ _ _ _ _ horders
  cases op with
  | allowRegisteredSource env args =>
    simp only [GrantOp.exec]
    rcases allowRegisteredSource_cases env args grants with
      ⟨status, -, hexec⟩ | ⟨device, address, generation, -, -, hexec⟩
    · rw [hexec]
      exact h
    · rw [hexec]
      exact hsync h
  | allowRecoverySource env args ttlMs =>
    simp only [GrantOp.exec]
    rcases allowRecoverySource_cases env args ttlMs grants with
      ⟨status, -, hexec⟩ | ⟨device, address, -, -, -, hexec⟩
    · rw [hexec]
      exact h
    · rcases hexec with ⟨item, -, -, hexec⟩ | hexec | ⟨generation, -, hexec⟩
      · rw [hexec]
        exact hP.cleanup h
      · rw [hexec]
        exact hsync (hP.cleanup h)
      · rw [hexec]
        exact hsync (hP.cleanup h)
  | removeRegisteredSource view =>
    simp only [GrantOp.exec]
    rcases removeRegisteredSource_cases view grants with
      ⟨status, -, hexec⟩ | ⟨device, -, hexec⟩
    · rw [hexec]
      exact h
    · rw [hexec]
      exact hP.erase _ _ h
  | cleanup => exact hP.cleanup h
  | query =>
    simp only [GrantOp.exec, registeredSourceAllowed]
    split_ifs
    · exact h
    · exact hP.cleanup h

/-- A move keeps the invariant. -/
theorem move (hP : OrderInvariant P) {pj : Pjsip} {a b : Ledger} (hmove : Move pj a b)
    (h : P a.core.orders) : P b.core.orders := by
  cases hmove with
  | purge | answer | terminate | expire | finish | start => exact h
  | enter rx p actions core' hstarted hparse hadmitted henters =>
    simp only [henters.core']
    exact h
  | complete env kept rest p command rx verdict nonces status core' actions hpending hid hcomp =>
    simp only [hcomp.core', ordersAfter]
    split_ifs
    · exact hP.commit _ _ _ _ h
    · exact h
  | release => exact hP.nil

theorem step (hP : OrderInvariant P) (pj : Pjsip) {s : Sys} (h : P s.runtime.registerOrders)
    (input : Input) : P (step pj s input).runtime.registerOrders := by
  show P (Auth.step pj s input).ledger.core.orders
  rcases hedits : input.edits s.grants with _ | grants
  · exact preserved (P := fun a => P a.core.orders) (fun _ _ => hP.move)
      (step_moves_of_none hedits) h
  · rw [step_of_edits hedits, whenStarted]
    rw [edits_eq] at hedits
    obtain ⟨op, -, rfl⟩ := Option.map_eq_some_iff.mp hedits
    split_ifs
    · exact hP.exec h op
    · exact h

/-- **What every write to the orders keeps holds after every run.** -/
theorem run (hP : OrderInvariant P) (pj : Pjsip) (config : Config) (inputs : List Input) :
    P (run pj config inputs).runtime.registerOrders := by
  have hfold : ∀ (inputs : List Input) (s : Sys), P s.runtime.registerOrders →
      P (inputs.foldl (Auth.step pj) s).runtime.registerOrders := by
    intro inputs
    induction inputs with
    | nil => exact fun s h => h
    | cons input rest ih => exact fun s h => ih _ (hP.step pj h input)
  exact hfold inputs (Sys.init config) hP.nil

end OrderInvariant

/-- The Call-IDs in the list fit their records. -/
theorem callIdsFit_invariant : OrderInvariant CallIdsFit where
  nil := fun _ hmem => absurd hmem List.not_mem_nil
  erase := fun _ _ h => h.erase
  commit := fun _ _ _ _ h => h.commit
  sync := fun _ _ _ _ _ h => h.sync

/-- No device has two orders. -/
theorem nodup_invariant : OrderInvariant fun orders => (orders.map RegisterOrder.deviceId).Nodup where
  nil := List.nodup_nil
  erase := fun _ _ h => Keyed.nodup_erase h
  commit := fun _ _ _ _ h => nodup_commitRegisterOrder h
  sync := fun _ _ _ _ _ h => nodup_syncRegisterOrder h

/-! ## Sweeps -/

/-- No recovery grant of the device has expired. -/
def Unexpired (deviceId : Bytes) (now : ℕ) (sources : List RegisteredSource) : Prop :=
  ∀ source ∈ sources, source.deviceId = deviceId → kept now source = true

section sweeps

variable {deviceId : Bytes} {sources : List RegisteredSource} {orders : List RegisterOrder} {now : ℕ}

/-- A sweep that does not unlink a source of the device leaves its order. -/
theorem orderOf_cleanup (h : Unexpired deviceId now sources) :
    Auth.orderOf (cleanupRecoverySources now sources orders).orders deviceId =
      Auth.orderOf orders deviceId := by
  induction sources generalizing orders with
  | nil => rfl
  | cons source rest ih =>
    have hrest : Unexpired deviceId now rest :=
      fun other hother => h other (List.mem_cons_of_mem _ hother)
    unfold cleanupRecoverySources
    by_cases hdue : 0 < source.recoveryExpiresAtMs ∧ source.recoveryExpiresAtMs ≤ now
    · have hne : deviceId ≠ source.deviceId := by
        rintro rfl
        simpa [kept, hdue] using h source List.mem_cons_self rfl
      rw [if_pos hdue, ih hrest]
      unfold Auth.orderOf removeRegisterOrder
      rw [Keyed.get_erase_ne hne]
    · rw [if_neg hdue]
      exact ih hrest

/-- A sweep gives no device an order. -/
theorem orderOf_cleanup_none (h : Auth.orderOf orders deviceId = none) :
    Auth.orderOf (cleanupRecoverySources now sources orders).orders deviceId = none := by
  induction sources generalizing orders with
  | nil => exact h
  | cons source rest ih =>
    unfold cleanupRecoverySources
    split_ifs
    · have hnone := Keyed.get_eq_none_iff.mp (Option.map_eq_none_iff.mp h)
      refine ih (Option.map_eq_none_iff.mpr (Keyed.get_eq_none_iff.mpr fun hmem => hnone ?_))
      exact (Keyed.erase_sublist.map _).subset hmem
    · exact ih h

/-- A sweep that unlinks a source of the device takes its order. -/
theorem orderOf_cleanup_expired (hnodup : (orders.map RegisterOrder.deviceId).Nodup)
    (h : ¬Unexpired deviceId now sources) :
    Auth.orderOf (cleanupRecoverySources now sources orders).orders deviceId = none := by
  induction sources generalizing orders with
  | nil => exact absurd (fun _ hmem => absurd hmem List.not_mem_nil) h
  | cons source rest ih =>
    unfold cleanupRecoverySources
    by_cases hdue : 0 < source.recoveryExpiresAtMs ∧ source.recoveryExpiresAtMs ≤ now
    · rw [if_pos hdue]
      by_cases hown : source.deviceId = deviceId
      · refine orderOf_cleanup_none (Option.map_eq_none_iff.mpr ?_)
        rw [hown]
        exact Keyed.get_erase_self hnodup
      · refine ih (Keyed.nodup_erase hnodup) fun hrest => h fun other hother hdevice => ?_
        rcases List.mem_cons.mp hother with rfl | hother
        · exact absurd hdevice hown
        · exact hrest other hother hdevice
    · rw [if_neg hdue]
      refine ih hnodup fun hrest => h fun other hother hdevice => ?_
      rcases List.mem_cons.mp hother with rfl | hother
      · rw [kept, decide_eq_false hdue]
        rfl
      · exact hrest other hother hdevice

/-- **A sweep leaves the order of a device exactly if the device has none or no expired grant.** -/
theorem orderOf_cleanup_iff (hnodup : (orders.map RegisterOrder.deviceId).Nodup) :
    Auth.orderOf (cleanupRecoverySources now sources orders).orders deviceId =
      Auth.orderOf orders deviceId ↔
    (Auth.orderOf orders deviceId ≠ none → Unexpired deviceId now sources) := by
  constructor
  · intro h horder
    by_contra hexpired
    exact horder (h.symm.trans (orderOf_cleanup_expired hnodup hexpired))
  · intro h
    by_cases horder : Auth.orderOf orders deviceId = none
    · rw [horder]
      exact orderOf_cleanup_none horder
    · exact orderOf_cleanup (h horder)

end sweeps

end GmvPjsip.Access
