import GmvPjsip.Basic
import GmvPjsip.Lib.Framing
import GmvPjsip.Lib.RustStr
import GmvPjsip.Lib.Search

/-!
# The TCP framer of the socket layer

The model of `next_sip_message`, `content_length` and the read loop of `handle_tcp_stream`
(`src/io.rs`). A connection's reader appends each chunk to a `Vec<u8>` and then takes messages off
the front of the buffer until `next_sip_message` returns `None`.

* `Arith` says how the `usize` sum `header_end + 4 + content_length` is read: `exact` or, as a
  release build computes it, `wrapping` at `2 ^ 64`. Everything else is the same code.
* `extractLoop` is the `while let` loop. It runs on fuel and returns `none` when the fuel is used
  up; `extractLoop_mono` says that more fuel never changes a result.
* `exactRecogniser` presents the exact framer as a prefix-deterministic recogniser, and
  `extractLoop_exact` says that the loop then computes its maximal run of messages.
-/

namespace GmvPjsip.Framer

open GmvPjsip.Lib

/-! ## The code -/

/-- The delimiter `b"\r\n\r\n"`. -/
def crlfcrlf : Bytes := [13, 10, 13, 10]

/-- The name `"Content-Length"`. -/
def contentLengthName : List Char := "Content-Length".toList

/-- The closure of `content_length`: the value a single header line declares.
Source: `io.rs`, `content_length` -/
def contentLengthLine (line : List Char) : Option ℕ := do
  let (name, value) ← splitOnce ':' line
  if eqIgnoreAsciiCase name contentLengthName then parseUsize (trim value) else none

/-- The body length a header block declares: the first line with the right name and a value that
parses.
Source: `io.rs`, `content_length` -/
def contentLength (headers : Bytes) : Option ℕ := do
  let text ← fromUtf8 headers
  (lines text).findSome? contentLengthLine

/-- How a `usize` sum is read: in exact arithmetic, or wrapping as a release build computes it. -/
inductive Arith
  | exact
  | wrapping
  deriving DecidableEq, Repr

/-- The `usize` that holds a sum. -/
def Arith.usize : Arith → ℕ → ℕ
  | .exact, n => n
  | .wrapping, n => n % usizeSize

/-- `buffer.windows(4).position(|window| window == b"\r\n\r\n")`. -/
def headerEnd (buffer : Bytes) : Option ℕ := indexOfSlice crlfcrlf buffer

/-- The sum `header_end + 4 + content_length`, before it is put into a `usize`. -/
def messageLen (buffer : Bytes) (headerEnd : ℕ) : ℕ :=
  headerEnd + 4 + (contentLength (buffer.take headerEnd)).getD 0

/-- Take one message off the front of the buffer: the message and what is left.
Source: `io.rs`, `next_sip_message` -/
def nextSipMessage (ar : Arith) (buffer : Bytes) : Option (Bytes × Bytes) := do
  let headerEnd ← headerEnd buffer
  let len := ar.usize (messageLen buffer headerEnd)
  if buffer.length < len then none else some (buffer.take len, buffer.drop len)

/-- `while let Some(message) = next_sip_message(&mut buffer)`: the messages taken off the buffer
and the bytes that stay in it, or `none` when the fuel does not suffice.
Source: `io.rs`, `handle_tcp_stream` -/
def extractLoop (ar : Arith) : ℕ → Bytes → Option (List Bytes × Bytes)
  | 0, _ => none
  | fuel + 1, buffer =>
    match nextSipMessage ar buffer with
    | none => some ([], buffer)
    | some (message, rest) =>
      (extractLoop ar fuel rest).map fun p => (message :: p.1, p.2)

/-- The read loop over a list of chunks, from the messages delivered so far and the buffer: each
chunk is appended to the buffer and the messages are taken off it.
Source: `io.rs`, `handle_tcp_stream` -/
def readLoop (ar : Arith) (fuel : ℕ) : List Bytes × Bytes → List Bytes → Option (List Bytes × Bytes)
  | st, [] => some st
  | st, chunk :: chunks =>
    match extractLoop ar fuel (st.2 ++ chunk) with
    | none => none
    | some (messages, buffer) => readLoop ar fuel (st.1 ++ messages, buffer) chunks

/-- A connection: the read loop from an empty buffer. -/
def handleTcpStream (ar : Arith) (fuel : ℕ) (chunks : List Bytes) : Option (List Bytes × Bytes) :=
  readLoop ar fuel ([], []) chunks

/-! ## Taking one message -/

theorem crlfcrlf_ne_nil : crlfcrlf ≠ [] := by decide

variable {ar : Arith} {buffer : Bytes}

/-- What `next_sip_message` does on a buffer whose delimiter stands at `h`. -/
theorem nextSipMessage_of_headerEnd {h : ℕ} (hh : headerEnd buffer = some h) :
    nextSipMessage ar buffer =
      if buffer.length < ar.usize (messageLen buffer h) then none
      else some (buffer.take (ar.usize (messageLen buffer h)),
        buffer.drop (ar.usize (messageLen buffer h))) := by
  simp [nextSipMessage, hh]

/-- Without a delimiter there is no message. -/
theorem nextSipMessage_of_none (hh : headerEnd buffer = none) :
    nextSipMessage ar buffer = none := by
  simp [nextSipMessage, hh]

/-- A message that was returned: its delimiter was found, its length fits the buffer, and the
buffer is cut at that length. -/
theorem nextSipMessage_eq_some_iff {m rest : Bytes} : nextSipMessage ar buffer = some (m, rest) ↔
      ∃ h, headerEnd buffer = some h ∧ ar.usize (messageLen buffer h) ≤ buffer.length ∧
        m = buffer.take (ar.usize (messageLen buffer h)) ∧
        rest = buffer.drop (ar.usize (messageLen buffer h)) := by
  rcases hh : headerEnd buffer with _ | h
  · simp [nextSipMessage_of_none hh]
  · rw [nextSipMessage_of_headerEnd hh]
    by_cases hlen : buffer.length < ar.usize (messageLen buffer h)
    · rw [if_pos hlen]
      constructor
      · intro hn
        cases hn
      · rintro ⟨h', heq, hle, -, -⟩
        cases heq
        omega
    · rw [if_neg hlen, Option.some.injEq, Prod.mk.injEq]
      constructor
      · rintro ⟨rfl, rfl⟩
        exact ⟨h, rfl, not_lt.mp hlen, rfl, rfl⟩
      · rintro ⟨h', heq, -, rfl, rfl⟩
        cases heq
        exact ⟨rfl, rfl⟩

/-! ## The loop -/

/-- More fuel never changes a result of the extraction loop. -/
theorem extractLoop_mono {fuel fuel' : ℕ} {res : List Bytes × Bytes} (hff : fuel ≤ fuel')
    (h : extractLoop ar fuel buffer = some res) :
    extractLoop ar fuel' buffer = some res := by
  induction fuel generalizing fuel' buffer res with
  | zero => cases h
  | succ fuel ih =>
    obtain ⟨k, rfl⟩ : ∃ k, fuel' = k + 1 := ⟨fuel' - 1, by omega⟩
    rw [extractLoop] at h ⊢
    rcases hn : nextSipMessage ar buffer with _ | ⟨message, rest⟩
    · rw [hn] at h
      exact h
    · rw [hn] at h
      obtain ⟨p, hp, rfl⟩ := Option.map_eq_some_iff.mp h
      simp only
      rw [ih (Nat.le_of_succ_le_succ hff) hp]
      rfl

/-! ## The exact framer as a recogniser -/

/-- The length of the complete message at the front of a buffer, in exact arithmetic. -/
def exactSize (buffer : Bytes) : Option ℕ := do
  let headerEnd ← headerEnd buffer
  if buffer.length < messageLen buffer headerEnd then none else some (messageLen buffer headerEnd)

theorem exactSize_eq_some_iff {n : ℕ} : exactSize buffer = some n ↔
      ∃ h, headerEnd buffer = some h ∧ n = messageLen buffer h ∧ n ≤ buffer.length := by
  unfold exactSize
  rcases headerEnd buffer with _ | h
  · simp
  · simp only [Option.bind_eq_bind, Option.bind_some]
    split_ifs with hlen
    · constructor
      · intro hn
        cases hn
      · rintro ⟨h', heq, rfl, hle⟩
        cases heq
        omega
    · constructor
      · intro hn
        cases hn
        exact ⟨h, rfl, rfl, not_lt.mp hlen⟩
      · rintro ⟨h', heq, rfl, -⟩
        cases heq
        rfl

/-- The header block, and so the declared length, only depends on the bytes before the
delimiter. -/
theorem messageLen_congr {b b' : Bytes} {h : ℕ} (heq : b.take h = b'.take h) :
    messageLen b h = messageLen b' h := by
  rw [messageLen, messageLen, heq]

/-- The decision of the exact framer is made by the message's own bytes. -/
theorem exactSize_own {n : ℕ} (hn : exactSize buffer = some n) (c : Bytes) :
    exactSize (buffer.take n ++ c) = some n := by
  obtain ⟨h, hh, rfl, hle⟩ := exactSize_eq_some_iff.mp hn
  have hh4 : h + 4 ≤ messageLen buffer h := by rw [messageLen]; omega
  have hend : headerEnd (buffer.take (messageLen buffer h) ++ c) = some h :=
    indexOfSlice_append crlfcrlf_ne_nil (indexOfSlice_take crlfcrlf_ne_nil hh hh4) c
  have htake : (buffer.take (messageLen buffer h) ++ c).take h = buffer.take h := by
    rw [List.take_append_of_le_length (by rw [List.length_take]; omega), List.take_take,
      Nat.min_eq_left (by omega)]
  refine exactSize_eq_some_iff.mpr ⟨h, hend, (messageLen_congr htake).symm, ?_⟩
  rw [List.length_append, List.length_take]
  omega

/-- The framer in exact arithmetic, as a recogniser. -/
def exactRecogniser : Recogniser UInt8 where
  size := exactSize
  pos hn := by
    obtain ⟨h, -, rfl, -⟩ := exactSize_eq_some_iff.mp hn
    rw [messageLen]
    omega
  le hn := by
    obtain ⟨h, -, rfl, hle⟩ := exactSize_eq_some_iff.mp hn
    exact hle
  own hn c := exactSize_own hn c

/-- In exact arithmetic `next_sip_message` cuts off the message the recogniser sees. -/
theorem nextSipMessage_exact (buffer : Bytes) : nextSipMessage .exact buffer =
      (exactRecogniser.size buffer).map fun n => (buffer.take n, buffer.drop n) := by
  show _ = (exactSize buffer).map _
  rcases hh : headerEnd buffer with _ | h
  · rw [nextSipMessage_of_none hh]
    simp [exactSize, hh]
  · have husize : Arith.exact.usize (messageLen buffer h) = messageLen buffer h := rfl
    rw [nextSipMessage_of_headerEnd hh, husize]
    simp only [exactSize, hh, Option.bind_eq_bind, Option.bind_some]
    by_cases hlen : buffer.length < messageLen buffer h
    · rw [if_pos hlen, if_pos hlen]
      rfl
    · rw [if_neg hlen, if_neg hlen]
      rfl

/-- **The extraction loop computes the maximal run of messages.** In exact arithmetic it
terminates, with more fuel than there are bytes. -/
theorem extractLoop_exact {fuel : ℕ} (buffer : Bytes) (hfuel : buffer.length < fuel) :
    extractLoop .exact fuel buffer = some (exactRecogniser.frames buffer) := by
  induction buffer using exactRecogniser.frames_induction generalizing fuel with
  | hnone buffer hs =>
    obtain ⟨k, rfl⟩ : ∃ k, fuel = k + 1 := ⟨fuel - 1, by omega⟩
    rw [extractLoop, nextSipMessage_exact, hs, Recogniser.frames_of_none hs]
    rfl
  | hsome buffer n hs ih =>
    obtain ⟨k, rfl⟩ : ∃ k, fuel = k + 1 := ⟨fuel - 1, by omega⟩
    have hlt := exactRecogniser.length_drop_lt hs
    rw [extractLoop, nextSipMessage_exact, hs, Recogniser.frames_of_some hs]
    simp only [Option.map_some]
    rw [ih (by omega)]
    rfl

end GmvPjsip.Framer
