import GmvPjsip.Lib.Framing
import GmvPjsip.Framer.Message
import GmvPjsip.Transport.Receive

/-!
# Reassembly of a TCP stream

What the receive loop does to a stream when PJSIP consumes the maximal run of complete messages at
the front of every packet it is given.

* `Reassembles` is the assumption on what lies outside the shim: a recogniser whose messages fit a
  packet, and a `pjsip_tpmgr_receive_packet` that consumes exactly its messages.
* `Caught r s st`: the state has caught up with the stream `s`. The messages consumed are those of
  `s` and the remainder is the unconsumed tail of `s`.
* `TailsFit`: the stream never holds more unconsumed bytes than a packet. The loop refuses a stream
  for which this fails, with `PJSIP_ERXOVERFLOW`.
* `receiveChunks_reassembly`: every call succeeds exactly if the tails fit, and then the messages
  and the remainder are those of the whole stream, however it was cut.
* `receiveChunks_overflow`: a stream with a tail of one byte too many is refused.
-/

namespace GmvPjsip.Transport

open Lib

/-! ## What is assumed, and what is to be shown -/

/-- PJSIP consumes the messages of `r`, all of which fit a packet; the remote address is well
formed and `realloc` succeeds. -/
structure Reassembles (env : ReceiveEnv) (remote : Remote) (r : Recogniser UInt8) : Prop where
  bounded : ∀ {b n}, r.size b = some n → n ≤ env.maxPktLen
  address : env.initAddress remote.address remote.port = .success
  consumes : ∀ k b, b.length ≤ env.maxPktLen →
    env.receivePacket k b = ((r.frames b).1.flatten.length : Int)
  realloc : ∀ k, env.reallocOk k = true

/-- The bytes one call consumed. -/
def Delivery.consumed (d : Delivery) : Bytes := d.buffer.take d.processed.toNat

/-- The messages consumed so far. -/
def ReceiveState.messages (r : Recogniser UInt8) (st : ReceiveState) : List Bytes :=
  st.deliveries.flatMap fun d => (r.frames d.consumed).1

/-- The state has caught up with the stream `s`. -/
structure Caught (r : Recogniser UInt8) (s : Bytes) (st : ReceiveState) : Prop where
  messages : st.messages r = (r.frames s).1
  remainder : st.transport.remainder = (r.frames s).2

/-- At no point of the stream are more than `max` bytes unconsumed. -/
def TailsFit (r : Recogniser UInt8) (max : ℕ) (s : Bytes) : Prop :=
  ∀ k, (r.frames (s.take k)).2.length ≤ max

/-- A TCP transport on which nothing was received. -/
def ReceiveState.init : ReceiveState := ⟨⟨.tcp, [], 0⟩, []⟩

section tails

variable {r : Recogniser UInt8} {max : ℕ} {s d : Bytes}

theorem tailsFit_append : TailsFit r max (s ++ d) ↔
      TailsFit r max s ∧ ∀ k, (r.frames (s ++ d.take k)).2.length ≤ max := by
  constructor
  · intro h
    refine ⟨fun k => ?_, fun k => ?_⟩
    · have hk := h (min k s.length)
      rwa [List.take_append_of_le_length (Nat.min_le_right _ _), ← List.take_take,
        List.take_length] at hk
    · have hk := h (s.length + k)
      rwa [List.take_length_add_append] at hk
  · rintro ⟨hs, hd⟩ k
    rcases Nat.le_total k s.length with hk | hk
    · rw [List.take_append_of_le_length hk]
      exact hs k
    · obtain ⟨j, rfl⟩ := Nat.exists_eq_add_of_le hk
      rw [List.take_length_add_append]
      exact hd j

theorem tailsFit_nil : TailsFit r max [] := by
  intro k
  rw [List.take_nil, Recogniser.frames_of_none r.size_nil]
  exact Nat.zero_le max

/-- The tail behind more input is at most as long as the old tail and that input. -/
theorem length_tail_append_le (s d : Bytes) :
    (r.frames (s ++ d)).2.length ≤ (r.frames s).2.length + d.length := by
  rw [r.frames_append, ← List.length_append]
  have hshare := r.length_run_add_length_tail ((r.frames s).2 ++ d)
  exact hshare ▸ Nat.le_add_left _ _

end tails

/-! ## One pass -/

section pass

variable {env : ReceiveEnv} {remote : Remote} {r : Recogniser UInt8} {s : Bytes}
  {st : ReceiveState}

/-- A pass delivers the packet, consumes its messages and catches up with the part of the chunk
that was copied. -/
theorem receiveIteration_caught (h : Reassembles env remote r) (hst : Caught r s st)
    (hrem : st.transport.remainder.length ≤ env.maxPktLen) (data : Bytes) (offset : ℕ) :
    ∃ st', Caught r (s ++ (data.drop offset).take (copyLen env st data offset)) st' ∧
      st'.transport.remainder = (packet env st data offset).drop
        (r.frames (packet env st data offset)).1.flatten.length ∧
      receiveIteration env remote data offset st = afterSave env data (packet env st data offset)
          (r.frames (packet env st data offset)).1.flatten.length
          (offset + copyLen env st data offset) st' := by
  set piece := (data.drop offset).take (copyLen env st data offset) with hpiece
  have hpacket : packet env st data offset = (r.frames s).2 ++ piece := by
    rw [packet, hst.remainder]
  have hlen := length_packet_le env data offset st hrem
  set b := packet env st data offset with hb
  have hrun := r.length_run_add_length_tail b
  have hdeliver : deliverReceiveBuffer env remote st b = (.success, (r.frames b).1.flatten.length,
        ⟨st.transport, st.deliveries ++ [⟨b, ((r.frames b).1.flatten.length : Int)⟩]⟩) := by
    unfold deliverReceiveBuffer
    simp only [h.address, h.consumes _ b hlen]
    rw [if_neg (by simp), if_neg (by simp only [Int.toNat_natCast]; omega)]
    rfl
  obtain ⟨t', hsave, hkept, -⟩ | ⟨hok, -⟩ := saveRemainder_cases
    (env.reallocOk st.deliveries.length) st.transport (b.drop (r.frames b).1.flatten.length)
  · refine ⟨⟨t', st.deliveries ++ [⟨b, ((r.frames b).1.flatten.length : Int)⟩]⟩, ⟨?_, ?_⟩, hkept, ?_⟩
    · -- the messages of the packet are those the stream gains by the piece
      have hnew : (r.frames (Delivery.consumed ⟨b, ((r.frames b).1.flatten.length : Int)⟩)).1 =
          (r.frames b).1 := by
        unfold Delivery.consumed
        simp only [Int.toNat_natCast]
        rw [r.frames_take_run]
      unfold ReceiveState.messages
      rw [List.flatMap_append, List.flatMap_singleton, hnew, r.frames_append s piece, ← hpacket]
      exact congrArg (· ++ _) hst.messages
    · simp only
      rw [hkept, r.drop_run, r.frames_append s piece, ← hpacket]
    · unfold receiveIteration
      rw [if_neg (Nat.not_lt.mpr hrem)]
      simp only [← hb, hdeliver, hsave]
      rfl
  · rw [h.realloc] at hok
    cases hok

/-- The tails within the piece a pass copies fit the packet. -/
theorem length_tail_le_of_pass (hst : Caught r s st)
    (hrem : st.transport.remainder.length ≤ env.maxPktLen) {data : Bytes} {offset k : ℕ}
    (hk : k ≤ offset + copyLen env st data offset) :
    (r.frames (s ++ (data.drop offset).take (k - offset))).2.length ≤ env.maxPktLen := by
  have htail := length_tail_append_le (r := r) s ((data.drop offset).take (k - offset))
  rw [← hst.remainder, List.length_take, List.length_drop] at htail
  unfold copyLen at hk
  omega

/-- A pass that fills the packet and consumes nothing shows that the next byte is one too many. -/
theorem length_tail_of_overflow (h : Reassembles env remote r) (x : UInt8)
    (hfull : (r.frames s).2.length = env.maxPktLen) :
    env.maxPktLen < (r.frames (s ++ [x])).2.length := by
  have hnone : r.size ((r.frames s).2 ++ [x]) = none :=
    r.size_append_eq_none (r.size_frames_snd s) fun n hn => hfull ▸ h.bounded hn
  rw [r.frames_append, Recogniser.frames_of_none hnone]
  simp only [List.length_append, List.length_singleton, hfull]
  exact Nat.lt_succ_self _

end pass

/-! ## One call -/

section call

variable {env : ReceiveEnv} {remote : Remote} {r : Recogniser UInt8} {data s : Bytes}

/-- What a call that returned `status` says about the stream `s` it continued with `data`. -/
def CallSpec (env : ReceiveEnv) (r : Recogniser UInt8) (s data : Bytes) (status : PjStatus)
    (st' : ReceiveState) : Prop :=
  (status = .success ∧ Caught r (s ++ data) st' ∧
      ∀ k, (r.frames (s ++ data.take k)).2.length ≤ env.maxPktLen) ∨
    (status = .erxoverflow ∧ ∃ k, env.maxPktLen < (r.frames (s ++ data.take k)).2.length)

/-- The loop, from a state that has caught up with the chunk up to the offset. -/
theorem receiveLoop_spec (h : Reassembles env remote r) {fuel offset : ℕ} {st st' : ReceiveState}
    {status : PjStatus} (hst : Caught r (s ++ data.take offset) st)
    (hrem : st.transport.remainder.length ≤ env.maxPktLen)
    (htails : ∀ k ≤ offset, (r.frames (s ++ data.take k)).2.length ≤ env.maxPktLen)
    (hloop : receiveLoop env remote data fuel offset st = some (status, st')) :
    CallSpec env r s data status st' := by
  induction fuel generalizing offset st with
  | zero => cases hloop
  | succ fuel ih =>
    obtain ⟨st₁, hst₁, hkept, hpass⟩ := receiveIteration_caught h hst hrem data offset
    rw [List.append_assoc, ← List.take_add] at hst₁
    -- the tails up to the new offset fit: old ones by hypothesis, new ones within the packet
    have htails₁ : ∀ k ≤ offset + copyLen env st data offset,
        (r.frames (s ++ data.take k)).2.length ≤ env.maxPktLen := by
      intro k hk
      rcases Nat.le_total k offset with hold | hnew
      · exact htails k hold
      · have hpiece := length_tail_le_of_pass hst hrem hk
        rwa [List.append_assoc, ← List.take_add, Nat.add_sub_cancel' hnew] at hpiece
    rw [receiveLoop, hpass] at hloop
    unfold afterSave at hloop
    split_ifs at hloop with hover hbreak
    · -- the packet is full and holds no message, and the chunk has another byte
      obtain ⟨rfl, -⟩ := Prod.mk.inj (Option.some.inj hloop)
      obtain ⟨hzero, hfull, hlt⟩ := hover
      rw [hzero, List.drop_zero, hst₁.remainder] at hkept
      rw [← hkept] at hfull
      refine Or.inr ⟨rfl, offset + copyLen env st data offset + 1, ?_⟩
      rw [List.take_succ_eq_append_getElem hlt, ← List.append_assoc]
      exact length_tail_of_overflow h _ hfull
    · -- the chunk is used up
      obtain ⟨rfl, rfl⟩ := Prod.mk.inj (Option.some.inj hloop)
      rw [List.take_of_length_le hbreak.1] at hst₁
      refine Or.inl ⟨rfl, hst₁, fun k => ?_⟩
      rcases Nat.le_total k (offset + copyLen env st data offset) with hk | hk
      · exact htails₁ k hk
      · have hall := htails₁ _ (Nat.le_refl _)
        rw [List.take_of_length_le hbreak.1] at hall
        rwa [List.take_of_length_le (Nat.le_trans hbreak.1 hk)]
    · exact ih hst₁ (hst₁.remainder ▸ htails₁ _ (Nat.le_refl _)) htails₁ hloop

/-- The fuel that suffices for a chunk no longer than a packet. -/
theorem receiveOnTransport_terminates (remote : Remote) {fuel : ℕ} {st : ReceiveState}
    (hprot : st.transport.protocol = .tcp)
    (hrem : st.transport.remainder.length ≤ env.maxPktLen) (hne : data ≠ [])
    (hlen : data.length ≤ env.maxPktLen) (hfuel : 2 * env.maxPktLen < fuel) :
    ∃ status st', receiveOnTransport env remote fuel st data = some (status, st') ∧
      receiveLoop env remote data fuel 0 st = some (status, st') ∧
      st'.transport.remainder.length ≤ env.maxPktLen ∧ st'.transport.protocol = .tcp := by
  have hunc : unconsumed data 0 st < fuel := by
    unfold unconsumed
    omega
  obtain ⟨status, st', hloop, hrem', hprot'⟩ :=
    receiveLoop_terminates remote hrem hunc
  refine ⟨status, st', ?_, hloop, hrem', hprot'.trans hprot⟩
  unfold receiveOnTransport
  rw [if_neg (fun h0 => hne (List.length_eq_zero_iff.mp h0)), hprot]
  exact hloop

end call

/-! ## All calls -/

section calls

variable {env : ReceiveEnv} {remote : Remote} {r : Recogniser UInt8} {chunks : List Bytes}

/-- The chunks are not empty and no longer than a packet. -/
def ChunksFit (max : ℕ) (chunks : List Bytes) : Prop :=
  ∀ c ∈ chunks, c ≠ [] ∧ c.length ≤ max

/-- Every call returns, whatever PJSIP does. -/
theorem receiveChunks_terminates (remote : Remote) {fuel : ℕ} (st : ReceiveState)
    (hprot : st.transport.protocol = .tcp)
    (hrem : st.transport.remainder.length ≤ env.maxPktLen)
    (hchunks : ChunksFit env.maxPktLen chunks) (hfuel : 2 * env.maxPktLen < fuel) :
    ∃ statuses st', receiveChunks env remote fuel st chunks = some (statuses, st') ∧
      statuses.length = chunks.length := by
  induction chunks generalizing st with
  | nil => exact ⟨[], st, rfl, rfl⟩
  | cons c cs ih =>
    obtain ⟨hne, hlen⟩ := hchunks c List.mem_cons_self
    obtain ⟨status, st₁, hcall, -, hrem₁, hprot₁⟩ :=
      receiveOnTransport_terminates remote hprot hrem hne hlen hfuel
    obtain ⟨statuses, st', hrest, hcount⟩ :=
      ih st₁ hprot₁ hrem₁ fun c' hc' => hchunks c' (List.mem_cons_of_mem c hc')
    refine ⟨status :: statuses, st', ?_, congrArg (· + 1) hcount⟩
    simp only [receiveChunks, hcall, hrest, Option.bind_eq_bind, Option.bind_some, Option.pure_def]

/-- The calls behind a stream `s` that fitted: all succeed exactly if the rest fits as well, and
then the state has caught up with all of it. -/
theorem receiveChunks_spec (h : Reassembles env remote r) {fuel : ℕ} {s : Bytes}
    {st st' : ReceiveState} {statuses : List PjStatus}
    (hprot : st.transport.protocol = .tcp) (hst : Caught r s st)
    (hs : TailsFit r env.maxPktLen s) (hchunks : ChunksFit env.maxPktLen chunks)
    (hfuel : 2 * env.maxPktLen < fuel)
    (hrun : receiveChunks env remote fuel st chunks = some (statuses, st')) :
    ((∀ status ∈ statuses, status = .success) ↔ TailsFit r env.maxPktLen (s ++ chunks.flatten)) ∧
      (TailsFit r env.maxPktLen (s ++ chunks.flatten) → Caught r (s ++ chunks.flatten) st') := by
  induction chunks generalizing s st statuses with
  | nil =>
    obtain ⟨rfl, rfl⟩ := Prod.mk.inj (Option.some.inj hrun)
    rw [List.flatten_nil, List.append_nil]
    exact ⟨⟨fun _ => hs, fun _ _ hmem => absurd hmem List.not_mem_nil⟩, fun _ => hst⟩
  | cons c cs ih =>
    obtain ⟨hne, hlen⟩ := hchunks c List.mem_cons_self
    have hrem : st.transport.remainder.length ≤ env.maxPktLen := by
      have hall := hs s.length
      rwa [List.take_length, ← hst.remainder] at hall
    obtain ⟨status, st₁, hcall, hloop, -, hprot₁⟩ :=
      receiveOnTransport_terminates remote hprot hrem hne hlen hfuel
    simp only [receiveChunks, hcall, Option.bind_eq_bind, Option.bind_some, Option.pure_def,
      Option.bind_eq_some_iff] at hrun
    obtain ⟨⟨rest, st₂⟩, hrest, heq⟩ := hrun
    obtain ⟨rfl, rfl⟩ := Prod.mk.inj (Option.some.inj heq)
    have hspec : CallSpec env r s c status st₁ := by
      refine receiveLoop_spec h (by simpa using hst) hrem ?_ hloop
      intro k hk
      obtain rfl := Nat.le_zero.mp hk
      have hall := hs s.length
      rwa [List.take_length, ← List.append_nil s, ← List.take_zero] at hall
    rw [List.flatten_cons, ← List.append_assoc]
    rcases hspec with ⟨rfl, hst₁, htails⟩ | ⟨rfl, k, hk⟩
    · obtain ⟨hiff, hcaught⟩ := ih hprot₁ hst₁ (tailsFit_append.mpr ⟨hs, htails⟩)
        (fun c' hc' => hchunks c' (List.mem_cons_of_mem c hc')) hrest
      rw [List.forall_mem_cons]
      exact ⟨⟨fun hall => hiff.mp hall.2, fun hfit => ⟨rfl, hiff.mpr hfit⟩⟩, hcaught⟩
    · -- the chunk has a tail that does not fit, and so has the stream
      have hnot : ¬ TailsFit r env.maxPktLen (s ++ c ++ cs.flatten) := by
        intro hfit
        have hfit' := (tailsFit_append.mp (tailsFit_append.mp hfit).1).2 k
        exact Nat.not_lt.mpr hfit' hk
      refine ⟨⟨fun hall => ?_, fun hfit => absurd hfit hnot⟩, fun hfit => absurd hfit hnot⟩
      cases hall _ List.mem_cons_self

/-- A transport on which nothing was received has caught up with the empty stream. -/
theorem caught_init : Caught r [] ReceiveState.init := by
  constructor
  · rw [Recogniser.frames_of_none r.size_nil]
    rfl
  · rw [Recogniser.frames_of_none r.size_nil]
    rfl

/-- **Reassembly.** However a stream is cut into chunks, every call succeeds exactly if at no point
of the stream more bytes are unconsumed than a packet holds. In that case the messages consumed are
those of the stream and the remainder is its unconsumed tail. -/
theorem receiveChunks_reassembly (h : Reassembles env remote r)
    (hchunks : ChunksFit env.maxPktLen chunks) {fuel : ℕ} (hfuel : 2 * env.maxPktLen < fuel) :
    ∃ statuses st', receiveChunks env remote fuel .init chunks = some (statuses, st') ∧
      statuses.length = chunks.length ∧
      ((∀ status ∈ statuses, status = .success) ↔ TailsFit r env.maxPktLen chunks.flatten) ∧
      (TailsFit r env.maxPktLen chunks.flatten → st'.messages r = (r.frames chunks.flatten).1 ∧
          st'.transport.remainder = (r.frames chunks.flatten).2) := by
  obtain ⟨statuses, st', hrun, hcount⟩ := receiveChunks_terminates remote
    .init rfl (Nat.zero_le _) hchunks hfuel
  obtain ⟨hiff, hcaught⟩ := receiveChunks_spec h rfl caught_init tailsFit_nil hchunks hfuel hrun
  rw [List.nil_append] at hiff hcaught
  exact ⟨statuses, st', hrun, hcount, hiff, fun hfit =>
    ⟨(hcaught hfit).messages, (hcaught hfit).remainder⟩⟩

end calls

/-! ## SIP messages in packets of 65,535 bytes -/

/-- The SIP messages that fit a packet of 65,535 bytes. -/
def sipRecogniser : Recogniser UInt8 := Framer.exactRecogniser.bounded 65535

/-- A PJSIP that consumes these messages. -/
def sipEnv : ReceiveEnv where
  maxPktLen := 65535
  initAddress _ _ := .success
  receivePacket _ b := ((sipRecogniser.frames b).1.flatten.length : Int)
  reallocOk _ := true

theorem sipEnv_reassembles (remote : Remote) : Reassembles sipEnv remote sipRecogniser where
  bounded := Framer.exactRecogniser.le_of_bounded
  address := rfl
  consumes _ _ _ := rfl
  realloc _ := rfl

/-- A cut within the blank line of a message. -/
theorem receiveChunks_reassembly_cut :
    ∃ statuses st', receiveChunks sipEnv ⟨[], 5060⟩ 131071 .init [[13, 10, 13], [10]] =
        some (statuses, st') ∧
      statuses.length = 2 ∧
      ((∀ status ∈ statuses, status = .success) ↔
        TailsFit sipRecogniser sipEnv.maxPktLen [13, 10, 13, 10]) ∧
      (TailsFit sipRecogniser sipEnv.maxPktLen [13, 10, 13, 10] →
        st'.messages sipRecogniser = (sipRecogniser.frames [13, 10, 13, 10]).1 ∧
          st'.transport.remainder = (sipRecogniser.frames [13, 10, 13, 10]).2) := by
  apply receiveChunks_reassembly (sipEnv_reassembles _)
  · unfold ChunksFit
    decide
  · decide

/-! ### A stream that is refused -/

/-- A packet of the letter `a` and one letter more. -/
def letters : List Bytes := [List.replicate 65535 97, [97]]

theorem letters_fit : ChunksFit sipEnv.maxPktLen letters := by
  intro c hc
  unfold letters at hc
  rw [List.mem_pair] at hc
  rcases hc with rfl | rfl
  · have hlen : (List.replicate 65535 (97 : UInt8)).length = 65535 := List.length_replicate
    have hpos : 0 < (List.replicate 65535 (97 : UInt8)).length := by
      rw [hlen]
      exact Nat.succ_pos _
    exact ⟨List.ne_nil_of_length_pos hpos, Nat.le_of_eq hlen⟩
  · exact ⟨List.cons_ne_nil _ _, by decide⟩

/-- Letters alone are no message. -/
theorem sipRecogniser_replicate (n : ℕ) : sipRecogniser.size (List.replicate n 97) = none := by
  apply Framer.exactRecogniser.bounded_of_none
  show Framer.exactSize _ = none
  have hnone : Framer.headerEnd (List.replicate n 97) = none := by
    rcases hfind : Framer.headerEnd (List.replicate n 97) with _ | i
    · rfl
    · have hmem : (13 : UInt8) ∈ (List.replicate n (97 : UInt8)).drop i :=
        (indexOfSlice_spec hfind).subset (by decide)
      exact absurd (List.eq_of_mem_replicate (List.mem_of_mem_drop hmem)) (by decide)
  unfold Framer.exactSize
  rw [hnone]
  rfl

theorem letters_tail : ¬ TailsFit sipRecogniser sipEnv.maxPktLen letters.flatten := by
  intro hfit
  have hflat : letters.flatten = List.replicate (65535 + 1) 97 := by
    rw [List.replicate_succ']
    rfl
  have hlast := hfit (65535 + 1)
  rw [hflat, List.take_of_length_le (Nat.le_of_eq List.length_replicate),
    Recogniser.frames_of_none (sipRecogniser_replicate _)] at hlast
  simp only [List.length_replicate] at hlast
  exact absurd hlast (by decide)

/-- The receive path refuses the letters, although each chunk fits a packet: a call fails. -/
theorem receiveChunks_overflow :
    Reassembles sipEnv ⟨[], 5060⟩ sipRecogniser ∧ ChunksFit sipEnv.maxPktLen letters ∧
      ∃ statuses st', receiveChunks sipEnv ⟨[], 5060⟩ 131071 .init letters = some (statuses, st') ∧
        ¬ ∀ status ∈ statuses, status = .success := by
  have hfuel : 2 * sipEnv.maxPktLen < 131071 := by decide
  obtain ⟨statuses, st', hrun, -⟩ := receiveChunks_terminates ⟨[], 5060⟩
    .init rfl (Nat.zero_le _) letters_fit hfuel
  have hiff := (receiveChunks_spec (sipEnv_reassembles _) rfl caught_init tailsFit_nil letters_fit
    hfuel hrun).1
  exact ⟨sipEnv_reassembles _, letters_fit, statuses, st', hrun, fun hall =>
    letters_tail (hiff.mp hall)⟩

end GmvPjsip.Transport
