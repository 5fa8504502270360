import GmvPjsip.Framer.RoundTrip
import GmvPjsip.Io.Streams

/-!
# What a peer sends arrives

A peer writes well-formed messages to a connection, and TCP delivers a first part of their bytes, in
chunks of any size. `peer_messages_arrive` follows them through the framer, the reader and the
channel to the worker, over any schedule of all tasks.
-/

namespace GmvPjsip.Io

open GmvPjsip.Auth
open GmvPjsip.Framer
open GmvPjsip.Lib

section
variable {ar : Arith} {ms : List FramedMessage} {found found' : List Bytes}
variable {buffer left more message : Bytes}

/-- What the framer takes off a buffer does not depend on what comes later. -/
theorem nextSipMessage_append (h : nextSipMessage ar buffer = some (message, left)) (more : Bytes) :
    nextSipMessage ar (buffer ++ more) = some (message, left ++ more) := by
  obtain ⟨i, hi, hlen, rfl, rfl⟩ := nextSipMessage_eq_some_iff.mp h
  have hle : i ≤ buffer.length := by
    rcases indexOfSlice_add_length_le hi with hle | hnil
    · exact Nat.le_trans (Nat.le_add_right _ _) hle
    · exact absurd hnil crlfcrlf_ne_nil
  have hsame : messageLen (buffer ++ more) i = messageLen buffer i :=
    messageLen_congr (List.take_append_of_le_length hle)
  refine nextSipMessage_eq_some_iff.mpr ⟨i, indexOfSlice_append crlfcrlf_ne_nil hi more, ?_⟩
  rw [hsame, List.length_append]
  exact ⟨Nat.le_add_right_of_le hlen, (List.take_append_of_le_length hlen).symm,
    (List.drop_append_of_le_length hlen).symm⟩

/-- The messages that were found are the first ones of the peer, and the others are still to come:
some of their bytes are in the buffer, and the rest has not been read. -/
def Arrived (ms : List FramedMessage) (found : List Bytes) (buffer more : Bytes) : Prop :=
  ∃ done rest, ms = done ++ rest ∧ found = done.map FramedMessage.bytes ∧
    buffer ++ more = rest.flatMap FramedMessage.bytes

/-- The framer takes the next message of the peer off the buffer. -/
theorem Arrived.take (h : Arrived ms found buffer more)
    (hnext : nextSipMessage ar buffer = some (message, left)) :
    Arrived ms (found ++ [message]) left more := by
  obtain ⟨done, rest, rfl, rfl, hsent⟩ := h
  have hall := nextSipMessage_append hnext more
  rw [hsent] at hall
  cases rest with
  | nil => exact absurd hall.symm (Option.some_ne_none _)
  | cons first rest =>
    rw [List.flatMap_cons, first.nextSipMessage_bytes_append] at hall
    obtain ⟨hfirst, hrest⟩ := Prod.mk.inj (Option.some.inj hall)
    exact ⟨done ++ [first], rest, List.append_cons .., by simp [hfirst], hrest.symm⟩

theorem Arrived.extractLoop {fuel : ℕ} (h : Arrived ms found buffer more)
    (hloop : extractLoop ar fuel buffer = some (found', left)) :
    Arrived ms (found ++ found') left more ∧ nextSipMessage ar left = none := by
  induction fuel generalizing buffer found found' with
  | zero => exact absurd hloop.symm (Option.some_ne_none _)
  | succ fuel ih =>
    rw [Framer.extractLoop] at hloop
    cases hnext : nextSipMessage ar buffer with
    | none =>
      rw [hnext] at hloop
      obtain ⟨rfl, rfl⟩ := Prod.mk.inj (Option.some.inj hloop)
      exact ⟨(List.append_nil found).symm ▸ h, hnext⟩
    | some next =>
      rw [hnext] at hloop
      obtain ⟨⟨found', left'⟩, hrest, heq⟩ := Option.map_eq_some_iff.mp hloop
      obtain ⟨rfl, rfl⟩ := Prod.mk.inj heq
      exact List.append_cons found .. ▸ ih (h.take hnext) hrest

theorem Arrived.readLoop {fuel : ℕ} {chunks : List Bytes}
    (h : Arrived ms found buffer (chunks.flatten ++ more)) (hnone : nextSipMessage ar buffer = none)
    (hloop : readLoop ar fuel (found, buffer) chunks = some (found', left)) :
    Arrived ms found' left more ∧ nextSipMessage ar left = none := by
  induction chunks generalizing buffer found with
  | nil =>
    obtain ⟨rfl, rfl⟩ := Prod.mk.inj (Option.some.inj hloop)
    exact ⟨h, hnone⟩
  | cons chunk chunks ih =>
    rw [Framer.readLoop] at hloop
    cases hextract : Framer.extractLoop ar fuel (buffer ++ chunk) with
    | none =>
      rw [hextract] at hloop
      exact absurd hloop.symm (Option.some_ne_none _)
    | some next =>
      rw [hextract] at hloop
      have hread : Arrived ms found (buffer ++ chunk) (chunks.flatten ++ more) := by
        simpa [Arrived] using h
      obtain ⟨hrest, hnone'⟩ := hread.extractLoop hextract
      exact ih hrest hnone' hloop

/-- The reader of a connection, in each of its states. -/
theorem Framed.arrived {chunks : List Bytes} {stream : Stream} (h : Framed ar chunks found stream)
    (hsent : chunks.flatten ++ more = ms.flatMap FramedMessage.bytes) :
    ∃ left, Arrived ms found left more ∧ ∀ localAddr buffer writer,
      stream = .running localAddr (.waiting buffer) writer → nextSipMessage ar left = none := by
  have hinit : ∀ {more}, more = ms.flatMap FramedMessage.bytes → Arrived ms [] [] more :=
    fun hmore => ⟨[], ms, rfl, rfl, hmore⟩
  match stream, h with
  | .running _ (.waiting _) _, ⟨_, hloop⟩ | .running _ .ended _, ⟨_, _, hloop⟩ =>
    obtain ⟨harrived, hnone⟩ := (hinit hsent).readLoop rfl hloop
    exact ⟨_, harrived, fun _ _ _ _ => hnone⟩
  | .running _ (.extracting left) _,
      ⟨before, chunk, _, delivered, kept, _, hchunks, hloop, htaken, hfound⟩ =>
    subst hchunks hfound
    rw [List.flatten_concat, List.append_assoc] at hsent
    have hread : Arrived ms delivered (kept ++ chunk) more := by
      simpa [Arrived] using ((hinit hsent).readLoop rfl hloop).1
    refine ⟨left, ?_, fun _ _ _ h => by cases h⟩
    clear h
    induction htaken with
    | nil => exact (List.append_nil delivered).symm ▸ hread
    | snoc _ hnext ih => exact (List.append_assoc ..) ▸ ih.take hnext
  | .spawned, ⟨hchunks, hfound⟩ | .aborted, ⟨hchunks, hfound⟩ =>
    subst hchunks hfound
    exact ⟨_, hinit hsent, fun _ _ _ h => by cases h⟩

end

/-- **What a peer sends arrives.** A peer sends well-formed messages on a connection, and a first
part of their bytes has been read, in chunks of any size. Over any schedule of all tasks, the reader
has reported the first of these messages, whole and in order; it waits for the next chunk only when
it has reported every message that was read completely; and as long as no command finds the channel
full, the worker receives them all. -/
theorem peer_messages_arrive (ar : Arith) (capacity : ℕ) (udp : Bool) (schedule : List Turn)
    (h : History) (hrun : runHistory ar capacity udp schedule = h)
    (hfew : h.tasks.connections.length < 2 ^ 64) (k : ℕ) (c : Connection)
    (hc : h.tasks.connections[k]? = some c) (ms : List FramedMessage) (more : Bytes)
    (hsent : (h.chunks k).flatten ++ more = ms.flatMap FramedMessage.bytes) :
    ∃ done rest, ms = done ++ rest ∧ h.tasks.reported k = c.reports (done.map FramedMessage.bytes) ∧
      (∀ localAddr buffer writer, c.stream = .running localAddr (.waiting buffer) writer →
        ∀ next others, rest = next :: others →
          (others.flatMap FramedMessage.bytes).length < more.length) ∧
      (h.tasks.lost = [] → ((h.received ++ h.tasks.channel).filter fun command =>
        command.association = some c.associationId) = c.reports (done.map FramedMessage.bytes)) := by
  subst hrun
  have hf := runHistory_faithful ar capacity udp schedule
  obtain ⟨messages, hframed, hreported⟩ := hf.reported hc
  obtain ⟨left, ⟨done, rest, rfl, rfl, hleft⟩, hnone⟩ := hframed.arrived hsent
  refine ⟨done, rest, rfl, hreported, ?_, fun hlost => ?_⟩
  · rintro localAddr buffer writer hwaits next others rfl
    rw [List.flatMap_cons] at hleft
    by_contra hle
    obtain ⟨extra, rfl⟩ : next.bytes <+: left := by
      refine List.prefix_of_prefix_length_le ⟨_, hleft.symm⟩ ⟨_, rfl⟩ ?_
      have hlength := congrArg List.length hleft
      rw [List.length_append, List.length_append] at hlength
      omega
    have hnext := hnone _ _ _ hwaits
    rw [next.nextSipMessage_bytes_append] at hnext
    exact absurd hnext (Option.some_ne_none _)
  · rw [hf.delivered hfew hc hlost, hreported]

/-- Two messages come in two chunks, and the end of the second one is missing. -/
def sampleArrivals : List Turn :=
  let bytes := FramedMessage.bytes default
  [.accept (sampleHost 1), .start 0 (some (sampleHost 2)), .read 0 (bytes.take 9), .extract 0,
    .read 0 (bytes.drop 9 ++ bytes.take 20), .extract 0, .extract 0, .consume]

theorem peer_messages_arrive_sample :
    ∃ (c : Connection) (done rest : List FramedMessage), [default, default] = done ++ rest ∧
      (runHistory .wrapping 8 false sampleArrivals).tasks.reported 0 =
        c.reports (done.map FramedMessage.bytes) ∧
      c.reports (done.map FramedMessage.bytes) =
        [.receive 1 .tcp (sampleHost 2) (sampleHost 1) (FramedMessage.bytes default)] := by
  obtain ⟨done, rest, hms, hreported, -, -⟩ :=
    peer_messages_arrive .wrapping 8 false sampleArrivals _ rfl (by decide +kernel) 0 _ rfl
      [default, default] ((FramedMessage.bytes default).drop 20) (by decide +kernel)
  refine ⟨_, done, rest, hms, hreported, ?_⟩
  rw [← hreported]
  rfl

end GmvPjsip.Io
