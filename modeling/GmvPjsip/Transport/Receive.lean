import GmvPjsip.Basic

/-!
# Receiving on a transport

The model of `gmv_receive_on_transport` and what it calls (`shim_transport.inc`). A TCP transport
keeps the bytes PJSIP did not consume as its remainder. A received chunk is copied behind the
remainder into the packet buffer, as far as it fits, and delivered; the loop goes on until the chunk
is used up and PJSIP consumes no more.

* `ReceiveEnv` holds what lies outside the shim: the packet size, `pj_sockaddr_init`, what each
  call of `pjsip_tpmgr_receive_packet` returns, and whether `realloc` succeeds. PJSIP leaves the
  packet buffer as it is.
* `receiveIteration` is one pass through the loop and `receiveLoop` the loop, on fuel.
* `receiveLoop_terminates`: whatever PJSIP returns, a fuel above the number of bytes at hand
  suffices, and the remainder never outgrows the packet buffer. What decreases is the number of
  bytes that PJSIP has not consumed.
-/

namespace GmvPjsip.Transport

/-! ## The code -/

/-- What the receive path calls outside the shim. `receivePacket k b` is what the `k`-th call of
`pjsip_tpmgr_receive_packet` returns on the buffer `b`, and `reallocOk k` whether a `realloc`
behind that call succeeds. -/
structure ReceiveEnv where
  /-- `PJSIP_MAX_PKT_LEN`. -/
  maxPktLen : ℕ
  /-- `pj_sockaddr_init` on an address and a port. -/
  initAddress : Bytes → ℕ → PjStatus
  /-- `pjsip_tpmgr_receive_packet`. -/
  receivePacket : ℕ → Bytes → Int
  /-- `realloc`. -/
  reallocOk : ℕ → Bool

/-- The part of `gmv_custom_transport` the receive path uses: the protocol and the remainder, of
which `remainder_len` bytes are in use. -/
structure CustomTransport where
  protocol : SipTransport
  remainder : Bytes
  remainderCapacity : ℕ
  deriving DecidableEq, Repr

/-- One call of `pjsip_tpmgr_receive_packet`: the buffer and the result. -/
structure Delivery where
  buffer : Bytes
  processed : Int
  deriving DecidableEq, Repr

/-- A transport and the calls made on it so far. -/
structure ReceiveState where
  transport : CustomTransport
  deliveries : List Delivery
  deriving DecidableEq, Repr

/-- The remote address and port of a receive command. -/
structure Remote where
  address : Bytes
  port : ℕ
  deriving DecidableEq, Repr

/-- Keep the bytes that were not consumed.
Source: `shim_transport.inc`, `gmv_save_remainder` -/
def saveRemainder (reallocOk : Bool) (t : CustomTransport) (data : Bytes) :
    PjStatus × CustomTransport :=
  if data.length = 0 then (.success, { t with remainder := [] })
  else if t.remainderCapacity < data.length then
    if reallocOk then
      (.success, { t with remainder := data, remainderCapacity := data.length })
    else (.enomem, t)
  else (.success, { t with remainder := data })

/-- Hand the packet buffer to PJSIP: the status, the number of bytes consumed and the new state.
The log of complete packets and the capture of a dialog route do not touch the transport.
Source: `shim_transport.inc`, `gmv_deliver_receive_buffer` -/
def deliverReceiveBuffer (env : ReceiveEnv) (remote : Remote) (st : ReceiveState)
    (buffer : Bytes) : PjStatus × ℕ × ReceiveState :=
  let status := env.initAddress remote.address remote.port
  if status ≠ .success then (status, 0, st)
  else
    let processed := env.receivePacket st.deliveries.length buffer
    let st' := { st with deliveries := st.deliveries ++ [⟨buffer, processed⟩] }
    if processed < 0 ∨ buffer.length < processed.toNat then (.einvalidop, 0, st')
    else (.success, processed.toNat, st')

/-- How a pass through the loop ends. -/
inductive Iteration
  /-- The loop goes on at an offset into the chunk. -/
  | again (offset : ℕ) (st : ReceiveState)
  /-- The function returns. -/
  | done (status : PjStatus) (st : ReceiveState)

/-- The number of bytes of the chunk that are copied behind the remainder. -/
def copyLen (env : ReceiveEnv) (st : ReceiveState) (data : Bytes) (offset : ℕ) : ℕ :=
  min (data.length - offset) (env.maxPktLen - st.transport.remainder.length)

/-- The packet buffer: the remainder and the next part of the chunk. -/
def packet (env : ReceiveEnv) (st : ReceiveState) (data : Bytes) (offset : ℕ) : Bytes :=
  st.transport.remainder ++ (data.drop offset).take (copyLen env st data offset)

/-- What the loop does once the packet has been delivered and the remainder saved. -/
def afterSave (env : ReceiveEnv) (data buffer : Bytes) (consumed offset : ℕ)
    (st : ReceiveState) : Iteration :=
  if consumed = 0 ∧ buffer.length = env.maxPktLen ∧ offset < data.length then
    .done .erxoverflow st
  else if data.length ≤ offset ∧ (consumed = 0 ∨ st.transport.remainder.length = 0) then
    .done .success st
  else .again offset st

/-- One pass through the loop.
Source: `shim_transport.inc`, `gmv_receive_on_transport` -/
def receiveIteration (env : ReceiveEnv) (remote : Remote) (data : Bytes) (offset : ℕ)
    (st : ReceiveState) : Iteration :=
  if env.maxPktLen < st.transport.remainder.length then .done .erxoverflow st
  else
    let buffer := packet env st data offset
    let (status, consumed, st₁) := deliverReceiveBuffer env remote st buffer
    if status ≠ .success then .done status st₁
    else
      let (status, transport) :=
        saveRemainder (env.reallocOk st.deliveries.length) st₁.transport (buffer.drop consumed)
      let st₂ := { st₁ with transport := transport }
      if status ≠ .success then .done status st₂
      else afterSave env data buffer consumed (offset + copyLen env st data offset) st₂

/-- The loop, or `none` when the fuel does not suffice.
Source: `shim_transport.inc`, `gmv_receive_on_transport` -/
def receiveLoop (env : ReceiveEnv) (remote : Remote) (data : Bytes) :
    ℕ → ℕ → ReceiveState → Option (PjStatus × ReceiveState)
  | 0, _, _ => none
  | fuel + 1, offset, st =>
    match receiveIteration env remote data offset st with
    | .done status st' => some (status, st')
    | .again offset' st' => receiveLoop env remote data fuel offset' st'

/-- Receive a chunk or a datagram on a transport.
Source: `shim_transport.inc`, `gmv_receive_on_transport` -/
def receiveOnTransport (env : ReceiveEnv) (remote : Remote) (fuel : ℕ) (st : ReceiveState)
    (data : Bytes) : Option (PjStatus × ReceiveState) :=
  if data.length = 0 then some (.einval, st)
  else match st.transport.protocol with
    | .udp =>
      if env.maxPktLen < data.length then some (.erxoverflow, st)
      else
        let (status, consumed, st') := deliverReceiveBuffer env remote st data
        some (if status = .success ∧ consumed = data.length then .success else .einvalidop, st')
    | _ => receiveLoop env remote data fuel 0 st

/-- Chunks received one after the other: the status of every call and the final state. -/
def receiveChunks (env : ReceiveEnv) (remote : Remote) (fuel : ℕ) :
    ReceiveState → List Bytes → Option (List PjStatus × ReceiveState)
  | st, [] => some ([], st)
  | st, chunk :: chunks => do
      let (status, st') ← receiveOnTransport env remote fuel st chunk
      let (statuses, st'') ← receiveChunks env remote fuel st' chunks
      return (status :: statuses, st'')

/-! ## The packet buffer -/

section packet

variable (env : ReceiveEnv) (remote : Remote) (data : Bytes) (offset : ℕ) (st : ReceiveState)

theorem length_packet : (packet env st data offset).length =
      st.transport.remainder.length + copyLen env st data offset := by
  unfold packet copyLen
  simp only [List.length_append, List.length_take, List.length_drop]
  omega

theorem length_packet_le (hrem : st.transport.remainder.length ≤ env.maxPktLen) :
    (packet env st data offset).length ≤ env.maxPktLen := by
  rw [length_packet]
  unfold copyLen
  omega

variable {env data offset st} in
/-- A part of the chunk that is left out was left out for want of room. -/
theorem length_packet_of_lt (hrem : st.transport.remainder.length ≤ env.maxPktLen)
    (hlt : offset + copyLen env st data offset < data.length) :
    (packet env st data offset).length = env.maxPktLen := by
  rw [length_packet]
  unfold copyLen at hlt ⊢
  omega

/-- What is saved as the remainder is what was given, unless `realloc` fails and the old
remainder is kept. -/
theorem saveRemainder_cases (ok : Bool) (t : CustomTransport) (rest : Bytes) :
    (∃ t', saveRemainder ok t rest = (.success, t') ∧ t'.remainder = rest ∧ t'.protocol = t.protocol) ∨
      (ok = false ∧ saveRemainder ok t rest = (.enomem, t)) := by
  unfold saveRemainder
  by_cases h0 : rest.length = 0
  · rw [if_pos h0]
    exact Or.inl ⟨_, rfl, (List.length_eq_zero_iff.mp h0).symm, rfl⟩
  · rw [if_neg h0]
    by_cases hcap : t.remainderCapacity < rest.length
    · rw [if_pos hcap]
      cases ok with
      | true => exact Or.inl ⟨_, rfl, rfl, rfl⟩
      | false => exact Or.inr ⟨rfl, rfl⟩
    · rw [if_neg hcap]
      exact Or.inl ⟨_, rfl, rfl, rfl⟩

/-- Delivering does not touch the transport. It fails, with at most the one call of PJSIP, or no more
is consumed than was delivered. -/
theorem deliverReceiveBuffer_cases (buffer : Bytes) :
    (∃ status made, status ≠ .success ∧ (∀ d ∈ made, d.buffer = buffer) ∧
        deliverReceiveBuffer env remote st buffer =
          (status, 0, { st with deliveries := st.deliveries ++ made })) ∨
      ∃ consumed, consumed ≤ buffer.length ∧ deliverReceiveBuffer env remote st buffer =
          (.success, consumed,
            { st with deliveries := st.deliveries ++ [⟨buffer, (consumed : Int)⟩] }) := by
  unfold deliverReceiveBuffer
  simp only
  by_cases haddr : env.initAddress remote.address remote.port = .success
  · rw [if_neg (not_not.mpr haddr)]
    by_cases hbad : env.receivePacket st.deliveries.length buffer < 0 ∨
        buffer.length < (env.receivePacket st.deliveries.length buffer).toNat
    · rw [if_pos hbad]
      exact Or.inl ⟨.einvalidop, [_], by decide, by simp, rfl⟩
    · rw [if_neg hbad]
      obtain ⟨hnonneg, hle⟩ := not_or.mp hbad
      refine Or.inr ⟨_, Nat.not_lt.mp hle, ?_⟩
      rw [Int.toNat_of_nonneg (Int.not_lt.mp hnonneg)]
  · rw [if_pos haddr]
    exact Or.inl ⟨_, [], haddr, nofun, by rw [List.append_nil]⟩

/-- What one pass can do: return an error with the transport as it was, or deliver the packet, keep
what was not consumed and decide whether to go on. -/
theorem receiveIteration_cases (hrem : st.transport.remainder.length ≤ env.maxPktLen) :
    (∃ status st' made, status ≠ .success ∧ st'.transport = st.transport ∧
        st'.deliveries = st.deliveries ++ made ∧
        (∀ d ∈ made, d.buffer = packet env st data offset) ∧
        receiveIteration env remote data offset st = .done status st') ∨
      ∃ consumed st', consumed ≤ (packet env st data offset).length ∧
        st'.transport.remainder = (packet env st data offset).drop consumed ∧
        st'.transport.protocol = st.transport.protocol ∧
        st'.deliveries = st.deliveries ++ [⟨packet env st data offset, (consumed : Int)⟩] ∧
        receiveIteration env remote data offset st =
          afterSave env data (packet env st data offset) consumed
            (offset + copyLen env st data offset) st' := by
  unfold receiveIteration
  rw [if_neg (Nat.not_lt.mpr hrem)]
  rcases deliverReceiveBuffer_cases env remote st (packet env st data offset) with
    ⟨status, made, hstatus, hmade, hdeliver⟩ | ⟨consumed, hle, hdeliver⟩
  · simp only [hdeliver, if_pos hstatus]
    exact Or.inl ⟨status, ⟨st.transport, st.deliveries ++ made⟩, made, hstatus, rfl, rfl, hmade, rfl⟩
  · simp only [hdeliver]
    rw [if_neg (not_not.mpr rfl)]
    rcases saveRemainder_cases (env.reallocOk st.deliveries.length) st.transport
        ((packet env st data offset).drop consumed) with ⟨t', hsave, hkept, hprot⟩ | ⟨-, hsave⟩
    · rw [hsave]
      exact Or.inr ⟨consumed, ⟨t', _⟩, hle, hkept, hprot, rfl, rfl⟩
    · rw [hsave]
      refine Or.inl ⟨.enomem, ⟨st.transport, st.deliveries ++ [_]⟩,
        [⟨packet env st data offset, (consumed : Int)⟩], by decide, rfl, rfl, by simp, rfl⟩

end packet

/-! ## Termination -/

variable {offset : ℕ} {st st' : ReceiveState}

section termination

variable {env : ReceiveEnv} {remote : Remote} {data : Bytes}

/-- The bytes at hand that PJSIP has not consumed. -/
def unconsumed (data : Bytes) (offset : ℕ) (st : ReceiveState) : ℕ :=
  st.transport.remainder.length + (data.length - offset)

/-- The loop goes on only behind a packet of which something was consumed: a pass that consumed
nothing either filled the packet buffer or used up the chunk. -/
theorem afterSave_again {buffer : Bytes} {consumed offset' : ℕ}
    (hfull : offset < data.length → buffer.length = env.maxPktLen)
    (h : afterSave env data buffer consumed offset st = .again offset' st') :
    0 < consumed ∧ offset' = offset ∧ st' = st := by
  unfold afterSave at h
  split_ifs at h with hover hbreak
  obtain ⟨rfl, rfl⟩ := Iteration.again.inj h
  refine ⟨Nat.pos_of_ne_zero ?_, rfl, rfl⟩
  intro hzero
  by_cases hlt : offset < data.length
  · exact hover ⟨hzero, hfull hlt, hlt⟩
  · exact hbreak ⟨Nat.not_lt.mp hlt, Or.inl hzero⟩

theorem afterSave_done {buffer : Bytes} {consumed : ℕ} {status : PjStatus}
    (h : afterSave env data buffer consumed offset st = .done status st') :
    st' = st := by
  unfold afterSave at h
  split_ifs at h <;> exact (Iteration.done.inj h).2.symm

/-- A pass that returns leaves a remainder that fits the packet buffer. -/
theorem receiveIteration_done {status : PjStatus}
    (hrem : st.transport.remainder.length ≤ env.maxPktLen)
    (h : receiveIteration env remote data offset st = .done status st') :
    st'.transport.remainder.length ≤ env.maxPktLen ∧
      st'.transport.protocol = st.transport.protocol := by
  rcases receiveIteration_cases env remote data offset st hrem with
    ⟨_, _, _, -, htrans, -, -, heq⟩ | ⟨consumed, st₁, -, hkept, hprot, -, heq⟩
  · rw [heq] at h
    obtain ⟨-, rfl⟩ := Iteration.done.inj h
    rw [htrans]
    exact ⟨hrem, rfl⟩
  · rw [heq] at h
    rw [afterSave_done h, hkept, List.length_drop]
    have hle := length_packet_le env data offset st hrem
    exact ⟨by omega, hprot⟩

/-- A pass that goes on leaves a remainder that fits the packet buffer and fewer unconsumed
bytes. -/
theorem receiveIteration_again {offset' : ℕ} (hrem : st.transport.remainder.length ≤ env.maxPktLen)
    (h : receiveIteration env remote data offset st = .again offset' st') :
    st'.transport.remainder.length ≤ env.maxPktLen ∧ st'.transport.protocol = st.transport.protocol ∧
      unconsumed data offset' st' < unconsumed data offset st := by
  rcases receiveIteration_cases env remote data offset st hrem with
    ⟨_, _, _, -, -, -, -, heq⟩ | ⟨consumed, st₁, hcons, hkept, hprot, -, heq⟩
  · rw [heq] at h
    cases h
  · rw [heq] at h
    obtain ⟨hpos, rfl, rfl⟩ := afterSave_again (length_packet_of_lt hrem) h
    have hle := length_packet_le env data offset st hrem
    have hcopy : copyLen env st data offset ≤ data.length - offset := Nat.min_le_left _ _
    unfold unconsumed
    rw [hkept, List.length_drop]
    rw [length_packet] at hcons hle ⊢
    exact ⟨by omega, hprot, by omega⟩

/-- **The loop terminates whatever PJSIP returns**, and leaves a remainder that fits the packet
buffer. -/
theorem receiveLoop_terminates (remote : Remote) {fuel : ℕ}
    (hrem : st.transport.remainder.length ≤ env.maxPktLen)
    (hfuel : unconsumed data offset st < fuel) :
    ∃ status st', receiveLoop env remote data fuel offset st = some (status, st') ∧
      st'.transport.remainder.length ≤ env.maxPktLen ∧
      st'.transport.protocol = st.transport.protocol := by
  -- the unconsumed bytes decrease from pass to pass, and the fuel stays above them
  induction fuel generalizing offset st with
  | zero => exact absurd hfuel (Nat.not_lt_zero _)
  | succ fuel ih =>
    rw [receiveLoop]
    rcases hpass : receiveIteration env remote data offset st with ⟨offset', st'⟩ | ⟨status, st'⟩
    · obtain ⟨hrem', hprot, hless⟩ := receiveIteration_again hrem hpass
      obtain ⟨status, st'', hloop, hrem'', hprot'⟩ :=
        ih hrem' (Nat.lt_of_lt_of_le hless (Nat.lt_succ_iff.mp hfuel))
      exact ⟨status, st'', hloop, hrem'', hprot'.trans hprot⟩
    · exact ⟨status, st', rfl, receiveIteration_done hrem hpass⟩

end termination

end GmvPjsip.Transport
