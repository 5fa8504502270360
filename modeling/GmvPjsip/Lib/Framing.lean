import Mathlib.Data.List.Basic
import Mathlib.Tactic.Common

/-!
# Framing a stream of symbols

A *recogniser* decides whether the front of a buffer holds a complete message and how long that
message is. It is *prefix-deterministic*: the decision is made by the message's own symbols, so
what follows the message cannot change it.

* `Recogniser.frames r b` cuts the maximal run of complete messages off the front of `b` and
  returns the messages with the tail that is left.
* `Recogniser.frames_append`: framing `b ++ c` is framing `b`, then framing what `b` left followed
  by `c`. Every statement about chunk boundaries below is this one, iterated.
* `Recogniser.feedAll_eq_frames`: a reader that appends each chunk to its buffer and frames the
  buffer sees the messages and the tail of the concatenated stream, however it is cut.
* `Recogniser.frames_flatten`: a concatenation of messages is framed into exactly these messages.

Nothing here depends on what the symbols or the messages are.
-/

namespace GmvPjsip.Lib

/-- A prefix-deterministic message recogniser. `size b = some n` says that the first `n` symbols
of `b` are a complete message. -/
structure Recogniser (α : Type*) where
  /-- The length of the complete message at the front of a buffer, if there is one. -/
  size : List α → Option ℕ
  /-- A message is not empty. -/
  pos : ∀ {b n}, size b = some n → 0 < n
  /-- A complete message lies within the buffer. -/
  le : ∀ {b n}, size b = some n → n ≤ b.length
  /-- The decision is made by the message's own symbols. -/
  own : ∀ {b n}, size b = some n → ∀ c, size (b.take n ++ c) = some n

namespace Recogniser

variable {α : Type*} (r : Recogniser α)

/-! ## Stability of the decision -/

/-- More input behind a complete message does not change it. -/
theorem size_append {b : List α} {n : ℕ} (h : r.size b = some n) (c : List α) :
    r.size (b ++ c) = some n := by
  have hsplit : b ++ c = b.take n ++ (b.drop n ++ c) := by
    rw [← List.append_assoc, List.take_append_drop]
  rw [hsplit]
  exact r.own h _

/-- A buffer cut behind its first message still shows that message. -/
theorem size_take {b : List α} {n k : ℕ} (h : r.size b = some n) (hk : n ≤ k) :
    r.size (b.take k) = some n := by
  have hsplit : b.take k = b.take n ++ (b.take k).drop n := by
    conv_lhs => rw [← List.take_append_drop n (b.take k)]
    rw [List.take_take, Nat.min_eq_left hk]
  rw [hsplit]
  exact r.own h _

/-- The empty buffer holds no message. -/
theorem size_nil : r.size [] = none := by
  rcases h : r.size [] with _ | n
  · rfl
  · have h0 := r.pos h
    have h1 := r.le h
    simp only [List.length_nil] at h1
    omega

/-- A buffer that shows no message shows none with more input behind it, unless the message
reaches into that input. -/
theorem size_append_eq_none {b c : List α} (h : r.size b = none)
    (hle : ∀ n, r.size (b ++ c) = some n → n ≤ b.length) : r.size (b ++ c) = none := by
  rcases hbc : r.size (b ++ c) with _ | n
  · rfl
  · have hb := r.size_take hbc (hle n hbc)
    rw [List.take_left, h] at hb
    cases hb

/-- Dropping the first message shortens the buffer. -/
theorem length_drop_lt {b : List α} {n : ℕ} (h : r.size b = some n) : (b.drop n).length < b.length := by
  have h0 := r.pos h
  have h1 := r.le h
  rw [List.length_drop]
  omega

/-! ## The maximal run of complete messages -/

/-- The maximal run of complete messages at the front of a buffer, and the tail it leaves. -/
def frames (b : List α) : List (List α) × List α :=
  match _h : r.size b with
  | none => ([], b)
  | some n => (b.take n :: (frames (b.drop n)).1, (frames (b.drop n)).2)
termination_by b.length
decreasing_by all_goals exact r.length_drop_lt _h

variable {r}

theorem frames_of_none {b : List α} (h : r.size b = none) : r.frames b = ([], b) := by
  rw [frames]
  split
  · rfl
  · next heq => rw [h] at heq; cases heq

theorem frames_of_some {b : List α} {n : ℕ} (h : r.size b = some n) :
    r.frames b = (b.take n :: (r.frames (b.drop n)).1, (r.frames (b.drop n)).2) := by
  rw [frames]
  split
  · next heq => rw [h] at heq; cases heq
  · next m heq =>
      rw [h] at heq
      cases heq
      rfl

variable (r)

/-- Induction along the messages of a buffer: either it shows none, or the claim is known of the
buffer without its first message. -/
theorem frames_induction {P : List α → Prop} (hnone : ∀ b, r.size b = none → P b)
    (hsome : ∀ b n, r.size b = some n → P (b.drop n) → P b) (b : List α) : P b := by
  induction hb : b.length using Nat.strongRecOn generalizing b with
  | _ k ih =>
    rcases h : r.size b with _ | n
    · exact hnone b h
    · exact hsome b n h (ih _ (hb ▸ r.length_drop_lt h) _ rfl)

/-- The tail left by framing shows no further message: the run is maximal. -/
theorem size_frames_snd (b : List α) : r.size (r.frames b).2 = none := by
  induction b using r.frames_induction with
  | hnone b h => rw [frames_of_none h]; exact h
  | hsome b n h ih => rw [frames_of_some h]; exact ih

/-- Framing loses nothing: the messages followed by the tail are the buffer. -/
theorem frames_flatten_append (b : List α) : (r.frames b).1.flatten ++ (r.frames b).2 = b := by
  induction b using r.frames_induction with
  | hnone b h => rw [frames_of_none h]; rfl
  | hsome b n h ih =>
    rw [frames_of_some h]
    simp only [List.flatten_cons, List.append_assoc]
    rw [ih, List.take_append_drop]

/-- The messages and the tail share out the length of the buffer. -/
theorem length_run_add_length_tail (b : List α) :
    (r.frames b).1.flatten.length + (r.frames b).2.length = b.length := by
  conv_rhs => rw [← r.frames_flatten_append b, List.length_append]

/-- Every message of a run is one by itself. -/
theorem size_of_mem_frames {b m : List α} (hm : m ∈ (r.frames b).1) : r.size m = some m.length := by
  induction b using r.frames_induction with
  | hnone b h =>
    rw [frames_of_none h] at hm
    cases hm
  | hsome b n h ih =>
    rw [frames_of_some h] at hm
    rcases List.mem_cons.mp hm with rfl | hm'
    · rw [List.length_take, Nat.min_eq_left (r.le h)]
      exact r.size_take h (Nat.le_refl n)
    · exact ih hm'

/-- **Framing is independent of a cut.** The messages of `b ++ c` are those of `b` followed by
those of the tail of `b` continued with `c`. -/
theorem frames_append (b c : List α) : r.frames (b ++ c) =
      ((r.frames b).1 ++ (r.frames ((r.frames b).2 ++ c)).1, (r.frames ((r.frames b).2 ++ c)).2) := by
  induction b using r.frames_induction with
  | hnone b h => rw [frames_of_none h]; rfl
  | hsome b n h ih =>
    have hle := r.le h
    rw [frames_of_some (r.size_append h c), frames_of_some h,
      List.take_append_of_le_length hle, List.drop_append_of_le_length hle, ih]
    rfl

/-- A message in front of a buffer is its first frame. -/
theorem frames_message_append {m : List α} (h : r.size m = some m.length) (b : List α) :
    r.frames (m ++ b) = (m :: (r.frames b).1, (r.frames b).2) := by
  have htake : (m ++ b).take m.length = m := List.take_left
  have hdrop : (m ++ b).drop m.length = b := List.drop_left
  rw [frames_of_some (r.size_append h b), htake, hdrop]

/-- **Round trip.** A concatenation of messages is framed into exactly these messages. -/
theorem frames_flatten {ms : List (List α)} (h : ∀ m ∈ ms, r.size m = some m.length) :
    r.frames ms.flatten = (ms, []) := by
  induction ms with
  | nil => exact frames_of_none r.size_nil
  | cons m ms ih =>
    rw [List.flatten_cons, r.frames_message_append (h m List.mem_cons_self),
      ih fun m' hm' => h m' (List.mem_cons_of_mem m hm')]

/-- The run of complete messages at the front of a buffer, taken by itself. -/
theorem frames_take_run (b : List α) :
    r.frames (b.take (r.frames b).1.flatten.length) = ((r.frames b).1, []) := by
  have htake : b.take (r.frames b).1.flatten.length = (r.frames b).1.flatten := by
    have h : ((r.frames b).1.flatten ++ (r.frames b).2).take (r.frames b).1.flatten.length =
        (r.frames b).1.flatten := List.take_left
    rwa [r.frames_flatten_append b] at h
  rw [htake]
  exact r.frames_flatten fun m hm => r.size_of_mem_frames hm

/-- What lies behind the run of complete messages is the tail. -/
theorem drop_run (b : List α) : b.drop (r.frames b).1.flatten.length = (r.frames b).2 := by
  have h : ((r.frames b).1.flatten ++ (r.frames b).2).drop (r.frames b).1.flatten.length =
      (r.frames b).2 := List.drop_left
  rwa [r.frames_flatten_append b] at h

/-! ## Recognisers with a largest message -/

/-- The recogniser that accepts the messages of `r` of at most `max` symbols. -/
def bounded (max : ℕ) : Recogniser α where
  size b := (r.size b).filter (· ≤ max)
  pos h := r.pos (Option.filter_eq_some_iff.mp h).1
  le h := r.le (Option.filter_eq_some_iff.mp h).1
  own h c := by
    obtain ⟨hsize, hmax⟩ := Option.filter_eq_some_iff.mp h
    exact Option.filter_eq_some_iff.mpr ⟨r.own hsize c, hmax⟩

theorem le_of_bounded {max n : ℕ} {b : List α} (h : (r.bounded max).size b = some n) : n ≤ max := by
  simpa using (Option.filter_eq_some_iff.mp h).2

theorem bounded_of_none {max : ℕ} {b : List α} (h : r.size b = none) :
    (r.bounded max).size b = none := by
  show (r.size b).filter _ = none
  rw [h]
  rfl

/-! ## Reading a stream in chunks -/

/-- One read: append the chunk to the pending tail and frame the result. -/
def feed (st : List (List α) × List α) (chunk : List α) : List (List α) × List α :=
  (st.1 ++ (r.frames (st.2 ++ chunk)).1, (r.frames (st.2 ++ chunk)).2)

/-- All reads, one chunk after the other, from an empty buffer. -/
def feedAll (chunks : List (List α)) : List (List α) × List α :=
  chunks.foldl r.feed ([], [])

/-- A read behind the frames of `b` gives the frames of `b` continued with the chunk. -/
theorem feed_frames (b chunk : List α) : r.feed (r.frames b) chunk = r.frames (b ++ chunk) :=
  (r.frames_append b chunk).symm

/-- Reads behind the frames of `b`, whatever the chunks. -/
theorem foldl_feed_frames (chunks : List (List α)) (b : List α) :
    chunks.foldl r.feed (r.frames b) = r.frames (b ++ chunks.flatten) := by
  induction chunks generalizing b with
  | nil => simp
  | cons c cs ih =>
    rw [List.foldl_cons, r.feed_frames, ih, List.flatten_cons, List.append_assoc]

/-- **Chunking invariance.** However the stream is cut into chunks, the reader sees the messages
of the whole stream and is left with its tail. -/
theorem feedAll_eq_frames (chunks : List (List α)) : r.feedAll chunks = r.frames chunks.flatten := by
  unfold feedAll
  rw [← frames_of_none r.size_nil, r.foldl_feed_frames]
  rfl

end Recogniser

end GmvPjsip.Lib
