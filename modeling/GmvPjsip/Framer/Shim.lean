import GmvPjsip.Calls.Scan
import GmvPjsip.Framer.Message
import GmvPjsip.Lib.CStr

/-!
# The framer of the shim

The shim has a framer of its own. `gmv_log_complete_sip_packets` (`shim_transport.inc`) cuts what
PJSIP consumed of a packet into messages and logs each of them; the packet comes from the socket
layer, which cut it out of the stream with `next_sip_message`.

* `sipHeaderEnd` also accepts two line feeds as the end of the header block, but only in a packet
  that nowhere holds `"\r\n\r\n"`.
* `sipContentLength` reads the first `Content-Length` line with `strtoul`, out of a buffer of 32
  bytes.
* `completeSipMessageLen` is the length of the message in front of a packet, or 0.
* `completeSipPackets_eq_singleton_iff`: the shim sees a packet as one message exactly if that
  length is the length of the packet.
-/

namespace GmvPjsip.Framer

open GmvPjsip.Lib GmvPjsip.Auth GmvPjsip.Calls

/-! ## The code -/

/-- The position of the first delimiter and its length. Where there is none the code returns 0 for
both, and its caller tests for that.
Source: `shim_transport.inc`, `gmv_sip_header_end` -/
def sipHeaderEnd (packet : Bytes) : Option (ℕ × ℕ) :=
  match indexOfSlice crlfcrlf packet with
  | some i => some (i, 4)
  | none => (indexOfSlice [10, 10] packet).map fun i => (i, 2)

/-- Source: `shim_transport.inc`, `gmv_sip_content_length` -/
def sipContentLength (headers : Bytes) : ℕ :=
  match packetHeaderCopy headers (ascii "Content-Length") 32 with
  | none => 0
  | some value => (strtoul value).getD 0

/-- The length of the message in front of a packet, or 0 where it is not complete. The sum is a
`size_t`.
Source: `shim_transport.inc`, `gmv_complete_sip_message_len` -/
def completeSipMessageLen (packet : Bytes) : ℕ :=
  match sipHeaderEnd packet with
  | none => 0
  | some (headersLen, delimiterLen) =>
    let messageLen :=
      (headersLen + delimiterLen + sipContentLength (packet.take headersLen)) % usizeSize
    if messageLen ≤ packet.length then messageLen else 0

/-- The messages the loop logs, with a bound on its rounds. -/
def completeSipLoop : ℕ → Bytes → List Bytes
  | 0, _ => []
  | rounds + 1, packet =>
    if packet = [] then []
    else
      let messageLen := completeSipMessageLen packet
      if messageLen = 0 then []
      else packet.take messageLen :: completeSipLoop rounds (packet.drop messageLen)

/-- The messages the shim logs of a packet. Every round takes a byte at least, so there are no more
rounds than bytes.
Source: `shim_transport.inc`, `gmv_log_complete_sip_packets` -/
def completeSipPackets (packet : Bytes) : List Bytes := completeSipLoop packet.length packet

/-! ## One message -/

theorem sipContentLength_lt (headers : Bytes) : sipContentLength headers < usizeSize := by
  have hpos : 0 < usizeSize := by decide
  rw [sipContentLength]
  rcases packetHeaderCopy headers (ascii "Content-Length") 32 with _ | value
  · exact hpos
  · simp only
    rcases hread : strtoul value with _ | n
    · exact hpos
    · exact strtoul_lt hread

/-- What the shim does on a packet with a delimiter of four bytes at `h`. -/
theorem completeSipMessageLen_of_headerEnd {packet : Bytes} {h : ℕ} (hh : headerEnd packet = some h) :
    completeSipMessageLen packet =
      if (h + 4 + sipContentLength (packet.take h)) % usizeSize ≤ packet.length then
        (h + 4 + sipContentLength (packet.take h)) % usizeSize
      else 0 := by
  have hend : sipHeaderEnd packet = some (h, 4) := by
    rw [sipHeaderEnd]
    rw [headerEnd] at hh
    rw [hh]
  simp only [completeSipMessageLen, hend]

theorem completeSipMessageLen_le (packet : Bytes) : completeSipMessageLen packet ≤ packet.length := by
  rw [completeSipMessageLen]
  rcases sipHeaderEnd packet with _ | ⟨headersLen, delimiterLen⟩
  · exact Nat.zero_le _
  · simp only
    split_ifs with hle
    · exact hle
    · exact Nat.zero_le _

/-! ## The loop -/

/-- **The shim sees a packet as one message** exactly if the message in front of it is as long as
the packet. -/
theorem completeSipPackets_eq_singleton_iff {packet : Bytes} (hne : packet ≠ []) :
    completeSipPackets packet = [packet] ↔ completeSipMessageLen packet = packet.length := by
  obtain ⟨n, hn⟩ : ∃ n, packet.length = n + 1 :=
    Nat.exists_eq_succ_of_ne_zero (List.length_pos_of_ne_nil hne).ne'
  rw [completeSipPackets, hn, completeSipLoop, if_neg hne]
  have hle := completeSipMessageLen_le packet
  simp only
  constructor
  · intro hone
    split_ifs at hone with hzero
    have hhead := congrArg List.length (List.cons.inj hone).1
    rw [List.length_take] at hhead
    omega
  · intro hlen
    rw [if_neg (by omega), hlen, ← hn, List.take_length, List.drop_length]
    cases n with
    | zero => rfl
    | succ n => rfl

end GmvPjsip.Framer
