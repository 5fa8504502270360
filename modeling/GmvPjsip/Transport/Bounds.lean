import GmvPjsip.Transport.Reassembly

/-!
# The receive loop in bounds

What the receive loop does when nothing at all is assumed of `pjsip_tpmgr_receive_packet`: it may
return any number, another one at every call.

* `atHand`: the bytes the loop still has, the remainder and the rest of the chunk. A pass moves bytes
  from here to what was consumed and loses none (`receiveIteration_conserves`).
* `receiveLoop_bounds`: the loop ends, delivers no empty packet and none that is too long, and after a
  success everything that came in was consumed or is in the remainder.
* `receiveOnTransport_bounds`: the same of a call on a TCP transport.
-/

namespace GmvPjsip.Transport

variable {offset consumed : ℕ} {st st' : ReceiveState}

section bounds

variable {env : ReceiveEnv} {remote : Remote} {data : Bytes}

/-- The bytes that are not consumed yet, in the order of the stream. -/
def atHand (data : Bytes) (offset : ℕ) (st : ReceiveState) : Bytes :=
  st.transport.remainder ++ data.drop offset

theorem length_atHand (offset : ℕ) (st : ReceiveState) :
    (atHand data offset st).length = unconsumed data offset st := by
  rw [atHand, List.length_append, List.length_drop, unconsumed]

/-- The packet is the front of what is at hand. -/
theorem packet_append_drop (env : ReceiveEnv) (offset : ℕ) (st : ReceiveState) :
    packet env st data offset ++ data.drop (offset + copyLen env st data offset) =
      atHand data offset st := by
  rw [packet, atHand, List.append_assoc, ← List.drop_drop, List.take_append_drop]

/-- While something is at hand the packet is not empty. -/
theorem packet_length_pos (hmax : 0 < env.maxPktLen)
    (hsome : 0 < (atHand data offset st).length) : 0 < (packet env st data offset).length := by
  rw [length_atHand, unconsumed] at hsome
  rw [length_packet, copyLen]
  omega

/-- A packet with what is consumed of it put aside. -/
theorem Delivery.consumed_append_drop (buffer : Bytes) (consumed : ℕ) :
    Delivery.consumed ⟨buffer, (consumed : Int)⟩ ++ buffer.drop consumed = buffer := by
  rw [Delivery.consumed, Int.toNat_natCast, List.take_append_drop]

/-- A pass that delivered its packet and saved the rest has lost nothing. -/
theorem receiveIteration_conserves
    (hkept : st'.transport.remainder = (packet env st data offset).drop consumed) :
    Delivery.consumed ⟨packet env st data offset, (consumed : Int)⟩ ++
        atHand data (offset + copyLen env st data offset) st' = atHand data offset st := by
  rw [← packet_append_drop env offset st, atHand, hkept, ← List.append_assoc,
    Delivery.consumed_append_drop]

/-- The loop goes on only while something is at hand. -/
theorem afterSave_again_pos {buffer : Bytes} {offset' : ℕ}
    (hfull : offset < data.length → buffer.length = env.maxPktLen)
    (h : afterSave env data buffer consumed offset st = .again offset' st') :
    0 < (atHand data offset st).length := by
  obtain ⟨hpos, -, -⟩ := afterSave_again hfull h
  rw [length_atHand, unconsumed]
  unfold afterSave at h
  split_ifs at h with hover hbreak
  rw [not_and_or, not_or] at hbreak
  omega

/-- The loop returns a success only once the chunk is used up. -/
theorem afterSave_success {buffer : Bytes}
    (h : afterSave env data buffer consumed offset st = .done .success st') :
    data.drop offset = [] := by
  unfold afterSave at h
  split_ifs at h with hover hbreak
  · cases h
  · exact List.drop_eq_nil_iff.mpr hbreak.1

/-- A packet that was delivered neither is empty nor overruns the packet buffer. -/
def Delivery.InBounds (env : ReceiveEnv) (d : Delivery) : Prop :=
  1 ≤ d.buffer.length ∧ d.buffer.length ≤ env.maxPktLen

theorem packet_inBounds (hmax : 0 < env.maxPktLen)
    (hrem : st.transport.remainder.length ≤ env.maxPktLen)
    (hsome : 0 < (atHand data offset st).length) (processed : Int) :
    Delivery.InBounds env ⟨packet env st data offset, processed⟩ :=
  ⟨packet_length_pos hmax hsome, length_packet_le env data offset st hrem⟩

/-- **The loop ends, in bounds and without losing a byte.** -/
theorem receiveLoop_bounds (remote : Remote) (hmax : 0 < env.maxPktLen) {fuel : ℕ}
    (hrem : st.transport.remainder.length ≤ env.maxPktLen)
    (hsome : 0 < (atHand data offset st).length)
    (hfuel : (atHand data offset st).length < fuel) :
    ∃ status st' made, receiveLoop env remote data fuel offset st = some (status, st') ∧
      st'.deliveries = st.deliveries ++ made ∧ (∀ d ∈ made, d.InBounds env) ∧
      st'.transport.remainder.length ≤ env.maxPktLen ∧
      (status = .success →
        made.flatMap Delivery.consumed ++ st'.transport.remainder = atHand data offset st) := by
  -- every pass that goes on consumes something, so less is at hand and the fuel stays above it
  induction fuel generalizing offset st with
  | zero => exact absurd hfuel (Nat.not_lt_zero _)
  | succ fuel ih =>
    rw [receiveLoop]
    rcases receiveIteration_cases env remote data offset st hrem with
      ⟨status, st', made, hstatus, htrans, hmade, hbuffer, heq⟩ |
      ⟨consumed, st', hle, hkept, -, hmade, heq⟩
    · rw [heq]
      refine ⟨status, st', made, rfl, hmade, ?_, htrans ▸ hrem, fun h => absurd h hstatus⟩
      intro d hd
      have hin := packet_inBounds hmax hrem hsome d.processed
      rwa [← hbuffer d hd] at hin
    · have hin := packet_inBounds hmax hrem hsome (consumed : Int)
      have hconserved := receiveIteration_conserves hkept
      rcases hpass : receiveIteration env remote data offset st with ⟨offset', st''⟩ | ⟨status, st''⟩
      · have hless := (receiveIteration_again hrem hpass).2.2
        have hrem' := (receiveIteration_again hrem hpass).1
        rw [heq] at hpass
        have hpos := afterSave_again_pos (length_packet_of_lt hrem) hpass
        obtain ⟨-, rfl, rfl⟩ := afterSave_again (length_packet_of_lt hrem) hpass
        rw [← length_atHand, ← length_atHand] at hless
        obtain ⟨status, last, more, hloop, hmore, hbounds, hrem'', hsuccess⟩ :=
          ih hrem' hpos (by omega)
        refine ⟨status, last, ⟨packet env st data offset, (consumed : Int)⟩ :: more, hloop, ?_, ?_,
          hrem'', ?_⟩
        · rw [hmore, hmade, List.append_assoc, List.singleton_append]
        · exact List.forall_mem_cons.mpr ⟨hin, hbounds⟩
        · intro hok
          rw [List.flatMap_cons, List.append_assoc, hsuccess hok, hconserved]
      · have hrem' := (receiveIteration_done hrem hpass).1
        rw [heq] at hpass
        obtain rfl := afterSave_done hpass
        refine ⟨status, _, [⟨packet env st data offset, (consumed : Int)⟩], rfl, hmade,
          by simpa using hin, hrem', ?_⟩
        rintro rfl
        rw [atHand, afterSave_success hpass, List.append_nil] at hconserved
        simpa using hconserved

/-- **Receiving on a TCP transport ends and stays in bounds whatever PJSIP returns.** Every packet
that is delivered is neither empty nor too long, the remainder fits the packet buffer again after a
success and after every error, and after a success the bytes consumed and the new remainder are the
old remainder and the chunk. -/
theorem receiveOnTransport_bounds (env : ReceiveEnv) (hmax : 0 < env.maxPktLen) (remote : Remote)
    (st : ReceiveState) (htcp : st.transport.protocol = .tcp)
    (hrem : st.transport.remainder.length ≤ env.maxPktLen) (data : Bytes) (hdata : data ≠ []) :
    ∃ fuel₀, ∀ fuel ≥ fuel₀, ∃ status st' made,
      receiveOnTransport env remote fuel st data = some (status, st') ∧
        st'.deliveries = st.deliveries ++ made ∧
        (∀ d ∈ made, 1 ≤ d.buffer.length ∧ d.buffer.length ≤ env.maxPktLen) ∧
        st'.transport.remainder.length ≤ env.maxPktLen ∧
        (status = .success → made.flatMap Delivery.consumed ++ st'.transport.remainder =
          st.transport.remainder ++ data) := by
  refine ⟨(atHand data 0 st).length + 1, fun fuel hfuel => ?_⟩
  have hlen : data.length ≠ 0 := fun h => hdata (List.length_eq_zero_iff.mp h)
  have hsome : 0 < (atHand data 0 st).length := by
    rw [atHand, List.drop_zero, List.length_append]
    omega
  unfold receiveOnTransport
  rw [if_neg hlen, htcp]
  have hloop := receiveLoop_bounds remote hmax hrem hsome (Nat.lt_of_succ_le hfuel)
  rwa [atHand, List.drop_zero] at hloop

end bounds

/-- A PJSIP that consumes one byte of every packet, then nothing, then claims more than it got. -/
def fickleEnv : ReceiveEnv where
  maxPktLen := 4
  initAddress := fun _ _ => .success
  receivePacket := fun k _ => [1, 0, 9].getD k (-1)
  reallocOk := fun _ => true

theorem receiveOnTransport_bounds_fickle : ∃ fuel₀, ∀ fuel ≥ fuel₀, ∃ status st' made,
      receiveOnTransport fickleEnv ⟨[], 0⟩ fuel ⟨⟨.tcp, [1, 2, 3, 4], 4⟩, []⟩ [5, 6] =
          some (status, st') ∧
        st'.deliveries = [] ++ made ∧
        (∀ d ∈ made, 1 ≤ d.buffer.length ∧ d.buffer.length ≤ fickleEnv.maxPktLen) ∧
        st'.transport.remainder.length ≤ fickleEnv.maxPktLen ∧
        (status = .success → made.flatMap Delivery.consumed ++ st'.transport.remainder =
          [1, 2, 3, 4] ++ [5, 6]) :=
  receiveOnTransport_bounds fickleEnv (by decide) ⟨[], 0⟩ ⟨⟨.tcp, [1, 2, 3, 4], 4⟩, []⟩ rfl
    (by decide) [5, 6] (by decide)

end GmvPjsip.Transport
