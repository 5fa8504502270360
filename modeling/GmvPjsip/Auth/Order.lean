import GmvPjsip.Lib.Keyed
import GmvPjsip.Auth.Message
import Mathlib.Logic.Function.Basic

/-!
# REGISTER ordering

The list `register_orders` remembers the Call-ID and the CSeq of the last accepted REGISTER of each
device, so that a REGISTER that was overtaken is refused.

* `registerOrderIsStale`, `commitRegisterOrder`, `removeRegisterOrder` and `syncRegisterOrder` are
  the shim's functions on the list. A Call-ID that does not fit the record is not stored, but the
  record made for it stays.
* `orderOf` reads the list as a map from devices, and `OrderMap` is what such a map is.
* `registerOrderIsStale_iff`: a REGISTER is stale exactly if the map holds its Call-ID with a larger
  CSeq. `orderOf_commitRegisterOrder`: accepting a REGISTER is one update of the map, if its Call-ID
  fits.
* `OrderEdit` is everything a REGISTER or a source call can do to the list; what both keep is read off
  it.
* `orderOf_commitRegisterOrder_self`, `orderOf_syncRegisterOrder_self` and their `_ne` forms: what a
  REGISTER and a source call do to one device, whatever else is in the list.
* `CallIdsFit`: a Call-ID in the list fits its record.
-/

namespace GmvPjsip.Auth

open GmvPjsip.Lib

/-- `GMV_SIP_CALL_ID_CAPACITY`. -/
def callIdCapacity : ℕ := 256

/-- A `gmv_register_order_t`. -/
structure RegisterOrder where
  deviceId : Bytes
  callId : Bytes
  cseq : ℕ
  deriving DecidableEq, Repr

/-! ## The code -/

/-- The Call-ID and the CSeq of a message that has both and no negative CSeq: what the ordering
functions require before they look at the list. -/
def orderKey (msg : SipMsg) : Option (Bytes × ℕ) :=
  match msg.callId, msg.cseq with
  | some callId, some cseq => if cseq < 0 then none else some (callId, cseq.toNat)
  | _, _ => none

/-- The stored order of the device has the Call-ID of the message and a larger CSeq.
Source: `shim_auth.inc`, `gmv_register_order_is_stale` -/
def registerOrderIsStale (orders : List RegisterOrder) (deviceId : Bytes) (msg : SipMsg) : Bool :=
  match orderKey msg, Keyed.get RegisterOrder.deviceId deviceId orders with
  | some (callId, cseq), some order => decide (callId = order.callId) && decide (cseq < order.cseq)
  | _, _ => false

/-- Overwrite the order of a device in place; a Call-ID that does not fit leaves it as it is. -/
def writeOrder (orders : List RegisterOrder) (order : RegisterOrder) (callId : StringView)
    (cseq : ℕ) : List RegisterOrder :=
  match copyView callIdCapacity callId with
  | none => orders
  | some callId => Keyed.set RegisterOrder.deviceId order.deviceId
      { order with callId := callId, cseq := cseq } orders

/-- Note an accepted REGISTER: unlink the order of the device if it expires at once, else overwrite
it or put a new one in front.
Source: `shim_auth.inc`, `gmv_commit_register_order` -/
def commitRegisterOrder (callocOk : Bool) (orders : List RegisterOrder) (deviceId : Bytes)
    (msg : SipMsg) : List RegisterOrder :=
  match orderKey msg with
  | none => orders
  | some (callId, cseq) =>
    if registerExpires msg = 0 then Keyed.erase RegisterOrder.deviceId deviceId orders
    else match Keyed.get RegisterOrder.deviceId deviceId orders with
      | some order => writeOrder orders order (.bytes callId) cseq
      | none =>
        if !callocOk then orders
        else match copyView 128 (.bytes deviceId) with
          | none => orders
          | some deviceId =>
            let order : RegisterOrder := ⟨deviceId, [], 0⟩
            writeOrder (order :: orders) order (.bytes callId) cseq

/-- Unlink the order of a device.
Source: `shim.c`, `gmv_remove_register_order` -/
def removeRegisterOrder (orders : List RegisterOrder) (deviceId : Bytes) : List RegisterOrder :=
  Keyed.erase RegisterOrder.deviceId deviceId orders

/-- Set the order of a device to the one the application passes with a source.
Source: `shim.c`, `gmv_sync_register_order` -/
def syncRegisterOrder (callocOk : Bool) (orders : List RegisterOrder) (deviceId : Bytes)
    (callId : StringView) (cseq : ℕ) : List RegisterOrder :=
  match callId with
  | .null _ => orders
  | .bytes _ =>
    if callId.len = 0 ∨ cseq = 0 then orders
    else match Keyed.get RegisterOrder.deviceId deviceId orders with
      | some order => writeOrder orders order callId cseq
      | none =>
        if !callocOk then orders
        else
          let order : RegisterOrder := ⟨deviceId, [], 0⟩
          writeOrder (order :: orders) order callId cseq

/-! ## The list as a map -/

/-- What the orders are for: the Call-ID and the CSeq last accepted from each device. -/
abbrev OrderMap := Bytes → Option (Bytes × ℕ)

/-- The ordering a list of orders stands for. -/
def orderOf (orders : List RegisterOrder) : OrderMap := fun deviceId =>
  (Keyed.get RegisterOrder.deviceId deviceId orders).map fun order => (order.callId, order.cseq)

/-- The ordering after a REGISTER of a device was accepted. -/
def OrderMap.accept (m : OrderMap) (deviceId : Bytes) (msg : SipMsg) : OrderMap :=
  Function.update m deviceId (if registerExpires msg = 0 then none else orderKey msg)

/-- The message has an order key whose Call-ID fits a record. -/
def FitsOrder (msg : SipMsg) : Prop :=
  ∃ callId cseq, orderKey msg = some (callId, cseq) ∧ callId.length < callIdCapacity ∧ 0 ∉ callId

instance (msg : SipMsg) : Decidable (FitsOrder msg) :=
  decidable_of_iff (∃ key ∈ orderKey msg, key.1.length < callIdCapacity ∧ 0 ∉ key.1)
    ⟨fun ⟨(callId, cseq), hkey, hfits⟩ => ⟨callId, cseq, hkey, hfits⟩,
      fun ⟨callId, cseq, hkey, hfits⟩ => ⟨(callId, cseq), hkey, hfits⟩⟩

variable {orders orders' : List RegisterOrder} {deviceId callId : Bytes} {msg : SipMsg}
    {order : RegisterOrder} {cseq : ℕ}

/-- A REGISTER is stale by a known call with a later CSeq. -/
theorem registerOrderIsStale_iff : registerOrderIsStale orders deviceId msg = true ↔
      ∃ callId cseq last, orderKey msg = some (callId, cseq) ∧
        orderOf orders deviceId = some (callId, last) ∧ cseq < last := by
  unfold registerOrderIsStale orderOf
  rcases orderKey msg with _ | ⟨callId, cseq⟩
  · simp
  · rcases Keyed.get RegisterOrder.deviceId deviceId orders with _ | order
    · simp
    · constructor
      · intro h
        rw [Bool.and_eq_true, decide_eq_true_iff, decide_eq_true_iff] at h
        exact ⟨callId, cseq, order.cseq, rfl, by simp [h.1], h.2⟩
      · rintro ⟨callId', cseq', last, hkey, horder, hlt⟩
        simp only [Option.some.injEq, Prod.mk.injEq, Option.map_some] at hkey horder
        obtain ⟨rfl, rfl⟩ := hkey
        obtain ⟨rfl, rfl⟩ := horder
        simp [hlt]

/-- Overwriting the order found for a device updates the map there. -/
theorem orderOf_writeOrder
    (hget : Keyed.get RegisterOrder.deviceId order.deviceId orders = some order)
    (hfits : callId.length < callIdCapacity ∧ 0 ∉ callId) :
    orderOf (writeOrder orders order (.bytes callId) cseq) =
      Function.update (orderOf orders) order.deviceId (some (callId, cseq)) := by
  have hcopy : copyView callIdCapacity (.bytes callId) = some callId := if_pos hfits
  have hkey : RegisterOrder.deviceId { order with callId := callId, cseq := cseq } =
    order.deviceId := rfl
  funext device
  unfold writeOrder orderOf
  rw [hcopy]
  by_cases hdev : device = order.deviceId
  · subst hdev
    rw [Function.update_self]
    simp only
    rw [Keyed.get_set_self hkey hget]
    rfl
  · rw [Function.update_of_ne hdev]
    simp only
    rw [Keyed.get_set_ne hkey hdev]

/-- Overwriting an order leaves every record its device. -/
theorem deviceIds_writeOrder {callId : StringView} :
    (writeOrder orders order callId cseq).map RegisterOrder.deviceId =
      orders.map RegisterOrder.deviceId := by
  unfold writeOrder
  rcases copyView callIdCapacity callId with _ | callId'
  · rfl
  · have hkey : RegisterOrder.deviceId { order with callId := callId', cseq := cseq } =
      order.deviceId := rfl
    simp only
    rw [Keyed.map_key_set hkey]

/-- A write keeps one order per device. -/
theorem nodup_writeOrder {callId : StringView}
    (hnodup : (orders.map RegisterOrder.deviceId).Nodup) :
    ((writeOrder orders order callId cseq).map RegisterOrder.deviceId).Nodup := by
  rwa [deviceIds_writeOrder]

/-- A new record in front that is overwritten at once updates the map too. -/
theorem orderOf_writeOrder_new (hfits : callId.length < callIdCapacity ∧ 0 ∉ callId) :
    orderOf (writeOrder (⟨deviceId, [], 0⟩ :: orders) ⟨deviceId, [], 0⟩ (.bytes callId) cseq) =
      Function.update (orderOf orders) deviceId (some (callId, cseq)) := by
  rw [orderOf_writeOrder (Keyed.get_cons_self rfl) hfits]
  funext device
  by_cases hdev : device = deviceId
  · subst hdev
    simp only [Function.update_self]
  · rw [Function.update_of_ne hdev, Function.update_of_ne hdev]
    unfold orderOf
    rw [Keyed.get_cons_ne (Ne.symm hdev)]

/-- **Accepting a REGISTER is one update of the map.** -/
theorem orderOf_commitRegisterOrder (hnodup : (orders.map RegisterOrder.deviceId).Nodup)
    (hmsg : FitsOrder msg)
    (hdevice : deviceId.length < 128 ∧ 0 ∉ deviceId) :
    orderOf (commitRegisterOrder true orders deviceId msg) = (orderOf orders).accept deviceId msg := by
  obtain ⟨callId, cseq, hkey, hfits⟩ := hmsg
  unfold commitRegisterOrder OrderMap.accept
  simp only [hkey]
  by_cases hexp : registerExpires msg = 0
  · simp only [if_pos hexp]
    funext device
    unfold orderOf
    by_cases hdev : device = deviceId
    · subst hdev
      rw [Function.update_self, Keyed.get_erase_self hnodup]
      rfl
    · rw [Function.update_of_ne hdev, Keyed.get_erase_ne hdev]
  · simp only [if_neg hexp]
    rcases hget : Keyed.get RegisterOrder.deviceId deviceId orders with _ | order
    · have hcopy : copyView 128 (.bytes deviceId) = some deviceId := if_pos hdevice
      simp only [Bool.not_true, Bool.false_eq_true, if_false, hcopy]
      exact orderOf_writeOrder_new hfits
    · obtain rfl := (Keyed.get_eq_some hget).2
      exact orderOf_writeOrder hget hfits

/-- A source call passes an order if it passes a Call-ID and a CSeq. -/
theorem not_unset (hnamed : callId ≠ []) (hcseq : cseq ≠ 0) :
    ¬ ((StringView.bytes callId).len = 0 ∨ cseq = 0) := by
  rintro (hempty | hzero)
  · exact hnamed (List.length_eq_zero_iff.mp hempty)
  · exact hcseq hzero

/-- **A source call that passes an order is one update of the map.** -/
theorem orderOf_syncRegisterOrder (hfits : callId.length < callIdCapacity ∧ 0 ∉ callId)
    (hnamed : callId ≠ []) (hcseq : cseq ≠ 0) :
    orderOf (syncRegisterOrder true orders deviceId (.bytes callId) cseq) =
      Function.update (orderOf orders) deviceId (some (callId, cseq)) := by
  simp only [syncRegisterOrder, if_neg (not_unset hnamed hcseq)]
  rcases hget : Keyed.get RegisterOrder.deviceId deviceId orders with _ | order
  · exact orderOf_writeOrder_new hfits
  · obtain rfl := (Keyed.get_eq_some hget).2
    exact orderOf_writeOrder hget hfits

/-! ## What is done to the list -/

/-- Everything a REGISTER or a source call of a device can do to the list: nothing, unlink the order
of the device, write to it, or put a new one in front and write to that. -/
inductive OrderEdit (deviceId : Bytes) (orders : List RegisterOrder) : List RegisterOrder → Prop
  | same : OrderEdit deviceId orders orders
  | erased : OrderEdit deviceId orders (Keyed.erase RegisterOrder.deviceId deviceId orders)
  | written {order : RegisterOrder} {view : StringView} {cseq : ℕ} :
      Keyed.get RegisterOrder.deviceId deviceId orders = some order →
      OrderEdit deviceId orders (writeOrder orders order view cseq)
  | added {view : StringView} {cseq : ℕ} :
      Keyed.get RegisterOrder.deviceId deviceId orders = none →
      OrderEdit deviceId orders (writeOrder (⟨deviceId, [], 0⟩ :: orders) ⟨deviceId, [], 0⟩ view cseq)

/-- A commit edits the order of its device. -/
theorem commitRegisterOrder_edit (callocOk : Bool) (orders : List RegisterOrder) (deviceId : Bytes)
    (msg : SipMsg) :
    OrderEdit deviceId orders (commitRegisterOrder callocOk orders deviceId msg) := by
  unfold commitRegisterOrder
  rcases orderKey msg with _ | ⟨callId, cseq⟩
  · exact .same
  · simp only
    by_cases hexpires : registerExpires msg = 0
    · rw [if_pos hexpires]
      exact .erased
    · rw [if_neg hexpires]
      rcases hget : Keyed.get RegisterOrder.deviceId deviceId orders with _ | order
      · cases callocOk with
        | false => exact .same
        | true =>
          simp only [Bool.not_true, Bool.false_eq_true, if_false]
          rcases hcopy : copyView 128 (.bytes deviceId) with _ | copied
          · exact .same
          · obtain rfl := (copyView_bytes_eq_some hcopy).1
            exact .added hget
      · exact .written hget

/-- So does a sync. -/
theorem syncRegisterOrder_edit (callocOk : Bool) (orders : List RegisterOrder) (deviceId : Bytes)
    (view : StringView) (cseq : ℕ) :
    OrderEdit deviceId orders (syncRegisterOrder callocOk orders deviceId view cseq) := by
  unfold syncRegisterOrder
  cases view with
  | null => exact .same
  | bytes data =>
    simp only
    by_cases hset : (StringView.bytes data).len = 0 ∨ cseq = 0
    · rw [if_pos hset]
      exact .same
    · rw [if_neg hset]
      rcases hget : Keyed.get RegisterOrder.deviceId deviceId orders with _ | order
      · cases callocOk with
        | false => exact .same
        | true => exact .added hget
      · exact .written hget

/-- Devices stay distinct. -/
theorem OrderEdit.nodup (h : OrderEdit deviceId orders orders')
    (hnodup : (orders.map RegisterOrder.deviceId).Nodup) :
    (orders'.map RegisterOrder.deviceId).Nodup := by
  cases h with
  | same => exact hnodup
  | erased => exact Keyed.nodup_erase hnodup
  | written => exact nodup_writeOrder hnodup
  | added hget =>
    apply nodup_writeOrder
    rw [List.map_cons, List.nodup_cons]
    exact ⟨Keyed.get_eq_none_iff.mp hget, hnodup⟩

/-- A commit keeps one order per device. -/
theorem nodup_commitRegisterOrder {callocOk : Bool}
    (hnodup : (orders.map RegisterOrder.deviceId).Nodup) :
    ((commitRegisterOrder callocOk orders deviceId msg).map RegisterOrder.deviceId).Nodup :=
  (commitRegisterOrder_edit callocOk orders deviceId msg).nodup hnodup

/-- So does a sync. -/
theorem nodup_syncRegisterOrder {callocOk : Bool} {view : StringView}
    (hnodup : (orders.map RegisterOrder.deviceId).Nodup) :
    ((syncRegisterOrder callocOk orders deviceId view cseq).map RegisterOrder.deviceId).Nodup :=
  (syncRegisterOrder_edit callocOk orders deviceId view cseq).nodup hnodup

/-! ## One device -/

section

variable {orders : List RegisterOrder} {order : RegisterOrder} {device deviceId callId : Bytes}
  {view : StringView} {cseq last : ℕ} {callocOk : Bool} {msg : SipMsg}

/-- A write leaves the other devices. -/
theorem orderOf_writeOrder_ne (hne : device ≠ order.deviceId) :
    orderOf (writeOrder orders order view cseq) device = orderOf orders device := by
  unfold writeOrder orderOf
  rcases copyView callIdCapacity view with _ | callId
  · rfl
  · have hkey : RegisterOrder.deviceId { order with callId := callId, cseq := cseq } =
      order.deviceId := rfl
    simp only
    rw [Keyed.get_set_ne hkey hne]

/-- A new record for one device leaves the orders of the others. -/
theorem orderOf_cons_ne (hne : device ≠ order.deviceId) :
    orderOf (order :: orders) device = orderOf orders device := by
  unfold orderOf
  rw [Keyed.get_cons_ne (Ne.symm hne)]

/-- So does an edit, -/
theorem OrderEdit.orderOf_ne (h : OrderEdit deviceId orders orders')
    (hne : device ≠ deviceId) : orderOf orders' device = orderOf orders device := by
  cases h with
  | same => rfl
  | erased =>
    unfold orderOf
    rw [Keyed.get_erase_ne hne]
  | written hget =>
    obtain rfl := (Keyed.get_eq_some hget).2
    exact orderOf_writeOrder_ne hne
  | added => rw [orderOf_writeOrder_ne hne, orderOf_cons_ne hne]

/-- a commit, -/
theorem orderOf_commitRegisterOrder_ne (hne : device ≠ deviceId) :
    orderOf (commitRegisterOrder callocOk orders deviceId msg) device = orderOf orders device :=
  (commitRegisterOrder_edit callocOk orders deviceId msg).orderOf_ne hne

/-- and a sync. -/
theorem orderOf_syncRegisterOrder_ne (hne : device ≠ deviceId) :
    orderOf (syncRegisterOrder callocOk orders deviceId view cseq) device = orderOf orders device :=
  (syncRegisterOrder_edit callocOk orders deviceId view cseq).orderOf_ne hne

/-- A device that has an order has a record. -/
theorem get_of_orderOf (h : orderOf orders deviceId = some (callId, last)) :
    ∃ order, Keyed.get RegisterOrder.deviceId deviceId orders = some order ∧
      order.deviceId = deviceId ∧ order.callId = callId := by
  obtain ⟨order, hget, heq⟩ := Option.map_eq_some_iff.mp h
  exact ⟨order, hget, (Keyed.get_eq_some hget).2, congrArg Prod.fst heq⟩

/-- A later REGISTER of a call whose Call-ID is stored overwrites the CSeq. -/
theorem orderOf_commitRegisterOrder_self (h : orderOf orders deviceId = some (callId, last))
    (hfits : callId.length < callIdCapacity ∧ 0 ∉ callId)
    (hkey : orderKey msg = some (callId, cseq)) (hexpires : registerExpires msg ≠ 0) :
    orderOf (commitRegisterOrder callocOk orders deviceId msg) deviceId = some (callId, cseq) := by
  obtain ⟨order, hget, rfl, -⟩ := get_of_orderOf h
  simp only [commitRegisterOrder, hkey, if_neg hexpires, hget]
  rw [orderOf_writeOrder hget hfits, Function.update_self]

/-- A source call with the stored Call-ID overwrites the CSeq. -/
theorem orderOf_syncRegisterOrder_self (h : orderOf orders deviceId = some (callId, last))
    (hfits : callId.length < callIdCapacity ∧ 0 ∉ callId) (hnamed : callId ≠ [])
    (hcseq : cseq ≠ 0) :
    orderOf (syncRegisterOrder callocOk orders deviceId (.bytes callId) cseq) deviceId =
      some (callId, cseq) := by
  obtain ⟨order, hget, rfl, -⟩ := get_of_orderOf h
  simp only [syncRegisterOrder, if_neg (not_unset hnamed hcseq), hget]
  rw [orderOf_writeOrder hget hfits, Function.update_self]

end

/-! ## Stored Call-IDs -/

/-- Every Call-ID in the list fits its record. -/
def CallIdsFit (orders : List RegisterOrder) : Prop :=
  ∀ order ∈ orders, order.callId.length < callIdCapacity ∧ 0 ∉ order.callId

namespace CallIdsFit

variable {orders : List RegisterOrder} {order : RegisterOrder} {deviceId : Bytes}
  {view : StringView} {cseq : ℕ} {callocOk : Bool} {msg : SipMsg}

/-- A Call-ID that is kept fits. -/
theorem of_orderOf (h : CallIdsFit orders)
    (horder : orderOf orders deviceId = some (callId, cseq)) :
    callId.length < callIdCapacity ∧ 0 ∉ callId := by
  obtain ⟨order, hget, -, rfl⟩ := get_of_orderOf horder
  exact h order (Keyed.get_eq_some hget).1

/-- Erasing keeps them fitting, -/
theorem erase (h : CallIdsFit orders) :
    CallIdsFit (Keyed.erase RegisterOrder.deviceId deviceId orders) :=
  fun order hmem => h order (Keyed.erase_sublist.subset hmem)

/-- and so do writes, -/
theorem write (h : CallIdsFit orders) : CallIdsFit (writeOrder orders order view cseq) := by
  unfold writeOrder
  rcases hcopy : copyView callIdCapacity view with _ | callId
  · exact h
  · intro other hother
    rcases Keyed.eq_or_mem_of_mem_set hother with rfl | hmem
    · exact copyView_fits hcopy
    · exact h other hmem

/-- A new record has no Call-ID yet. -/
theorem cons_empty (h : CallIdsFit orders) : CallIdsFit (⟨deviceId, [], 0⟩ :: orders) := by
  intro order hmem
  rcases List.mem_cons.mp hmem with rfl | hmem
  · exact ⟨Nat.zero_lt_succ _, List.not_mem_nil⟩
  · exact h order hmem

/-- edits, -/
theorem edit (h : CallIdsFit orders)
    (hedit : OrderEdit deviceId orders orders') : CallIdsFit orders' := by
  cases hedit with
  | same => exact h
  | erased => exact h.erase
  | written => exact h.write
  | added => exact h.cons_empty.write

/-- commits -/
theorem commit (h : CallIdsFit orders) :
    CallIdsFit (commitRegisterOrder callocOk orders deviceId msg) :=
  h.edit (commitRegisterOrder_edit callocOk orders deviceId msg)

/-- and syncs. -/
theorem sync (h : CallIdsFit orders) :
    CallIdsFit (syncRegisterOrder callocOk orders deviceId view cseq) :=
  h.edit (syncRegisterOrder_edit callocOk orders deviceId view cseq)

end CallIdsFit

end GmvPjsip.Auth
