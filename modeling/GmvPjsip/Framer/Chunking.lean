import GmvPjsip.Framer.Message

/-!
# The framer does not see how the stream was cut

In exact arithmetic the read loop of `handle_tcp_stream` is the chunked reader of the recogniser
(`readLoop_exact`), so by `Recogniser.feedAll_eq_frames` it delivers the messages of the whole
stream and keeps its tail, wherever the reads fell: inside the delimiter, inside the value of
`Content-Length` or inside a body.
-/

namespace GmvPjsip.Framer

open GmvPjsip.Lib

/-- The tail left by framing is no longer than the buffer. -/
theorem length_frames_snd_le (buffer : Bytes) :
    (exactRecogniser.frames buffer).2.length ≤ buffer.length := by
  have h := congrArg List.length (exactRecogniser.frames_flatten_append buffer)
  rw [List.length_append] at h
  omega

/-- The read loop is the recogniser's chunked reader, given more fuel than there are bytes to
come. -/
theorem readLoop_exact {fuel : ℕ} (chunks : List Bytes) (st : List Bytes × Bytes)
    (hfuel : st.2.length + chunks.flatten.length < fuel) :
    readLoop .exact fuel st chunks = some (chunks.foldl exactRecogniser.feed st) := by
  induction chunks generalizing st with
  | nil => rfl
  | cons chunk chunks ih =>
    rw [List.flatten_cons, List.length_append] at hfuel
    have hbuf : (st.2 ++ chunk).length < fuel := by
      rw [List.length_append]
      omega
    have hle := length_frames_snd_le (st.2 ++ chunk)
    rw [List.length_append] at hle
    rw [readLoop, extractLoop_exact _ hbuf, List.foldl_cons]
    exact ih (exactRecogniser.feed st chunk) (by
      show (exactRecogniser.frames (st.2 ++ chunk)).2.length + _ < fuel
      omega)

/-- A connection delivers the frames of the whole stream. -/
theorem handleTcpStream_exact {fuel : ℕ} (chunks : List Bytes) (hfuel : chunks.flatten.length < fuel) :
    handleTcpStream .exact fuel chunks = some (exactRecogniser.frames chunks.flatten) := by
  rw [← exactRecogniser.feedAll_eq_frames]
  exact readLoop_exact chunks ([], []) (by simpa using hfuel)

/-- **Chunking invariance of the TCP framer.** For every way of cutting a byte stream into read
chunks, the read loop terminates with the messages and the leftover of a single read of the whole
stream, and the messages followed by the leftover are the stream. -/
theorem handleTcpStream_chunking (chunks : List Bytes) : ∃ messages leftover, (∃ fuel₀, ∀ fuel ≥ fuel₀,
        handleTcpStream .exact fuel chunks = some (messages, leftover) ∧
          handleTcpStream .exact fuel [chunks.flatten] = some (messages, leftover)) ∧
      messages.flatten ++ leftover = chunks.flatten := by
  refine ⟨(exactRecogniser.frames chunks.flatten).1, (exactRecogniser.frames chunks.flatten).2,
    ⟨chunks.flatten.length + 1, fun fuel hfuel => ⟨?_, ?_⟩⟩,
    exactRecogniser.frames_flatten_append _⟩
  · exact handleTcpStream_exact chunks (by omega)
  · have hone : [chunks.flatten].flatten = chunks.flatten := by simp
    rw [handleTcpStream_exact [chunks.flatten] (by rw [hone]; omega), hone]

end GmvPjsip.Framer
