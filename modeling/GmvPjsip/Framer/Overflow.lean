import GmvPjsip.Framer.Message

/-!
# The framer on hostile input

In a release build the sum `header_end + 4 + content_length` wraps at `2 ^ 64`, and the peer
chooses `Content-Length`. A declared length just below `2 ^ 64` makes the wrapped sum small, so
`next_sip_message` returns a cut-off message, or an empty one for ever.

* `Progress buffer` is what a reader relies on: every call the extraction loop makes on the buffer
  returns a whole message, and the loop ends.
* `SumsFit buffer` is a condition on the bytes alone: in front of the buffer, and in front of what
  is left of it after its leading whole messages, the exact sum either fits a `usize` or wraps to
  more than there are bytes.
* `progress_iff_sumsFit`: the two are equivalent. `progress_fails` is a buffer of forty bytes on
  which the loop never ends.
-/

namespace GmvPjsip.Framer

open GmvPjsip.Lib

/-! ## What the loop meets -/

/-- The buffers on which the extraction loop calls `next_sip_message`, starting with the first. -/
inductive Visits (ar : Arith) : Bytes → Bytes → Prop
  | here (b : Bytes) : Visits ar b b
  | next {b m rest b' : Bytes} : nextSipMessage ar b = some (m, rest) → Visits ar rest b' →
      Visits ar b b'

/-- `m` is the message at the front of the buffer: it holds the header block, its delimiter and
the declared number of body bytes, and the sum of the three lengths is a `usize`. -/
def WholeMessage (buffer m : Bytes) : Prop :=
  ∃ h, headerEnd buffer = some h ∧ messageLen buffer h < usizeSize ∧
    m = buffer.take (messageLen buffer h) ∧ m.length = messageLen buffer h

/-- Every call of the extraction loop on the buffer returns a whole message, and the loop ends. -/
def Progress (buffer : Bytes) : Prop :=
  (∀ b m rest, Visits .wrapping buffer b → nextSipMessage .wrapping b = some (m, rest) →
      WholeMessage b m) ∧
    ∃ fuel res, extractLoop .wrapping fuel buffer = some res

/-- What is left of a buffer once some of its leading messages, in exact arithmetic, are gone. -/
inductive Leaves : Bytes → Bytes → Prop
  | here (b : Bytes) : Leaves b b
  | drop {b b' : Bytes} {n : ℕ} : exactRecogniser.size b = some n → Leaves (b.drop n) b' →
      Leaves b b'

/-- The sum for the header block at the front of the buffer fits a `usize`, or wraps to more than
there are bytes, so that the call waits for more. -/
def SumFits (buffer : Bytes) : Prop :=
  ∀ h, headerEnd buffer = some h →
    messageLen buffer h < usizeSize ∨ buffer.length < messageLen buffer h % usizeSize

/-- The sum fits in front of the buffer and behind each of its leading whole messages. -/
def SumsFit (buffer : Bytes) : Prop := ∀ b, Leaves buffer b → SumFits b

/-! ## One call -/

variable {buffer : Bytes}

/-- Where the sum fits, the wrapping call is the exact one. -/
theorem nextSipMessage_wrapping_of_sumFits (hfit : SumFits buffer) :
    nextSipMessage .wrapping buffer = none ∨
      nextSipMessage .wrapping buffer = nextSipMessage .exact buffer := by
  rcases hh : headerEnd buffer with _ | h
  · exact Or.inl (nextSipMessage_of_none hh)
  · rcases hfit h hh with hlt | hshort
    · right
      have husize : Arith.wrapping.usize (messageLen buffer h) =
          Arith.exact.usize (messageLen buffer h) := Nat.mod_eq_of_lt hlt
      rw [nextSipMessage_of_headerEnd hh, nextSipMessage_of_headerEnd hh, husize]
    · left
      rw [nextSipMessage_of_headerEnd hh]
      exact if_pos hshort

/-- A call that returns is exact and returns a whole message, if the sum fits. -/
theorem wholeMessage_of_sumFits {m rest : Bytes} (hfit : SumFits buffer)
    (hn : nextSipMessage .wrapping buffer = some (m, rest)) : WholeMessage buffer m := by
  obtain ⟨h, hh, hle, rfl, -⟩ := nextSipMessage_eq_some_iff.mp hn
  have hlt : messageLen buffer h < usizeSize := by
    rcases hfit h hh with hlt | hshort
    · exact hlt
    · exact absurd hle (not_le.mpr hshort)
  have husize : Arith.wrapping.usize (messageLen buffer h) = messageLen buffer h :=
    Nat.mod_eq_of_lt hlt
  rw [husize] at hle ⊢
  exact ⟨h, hh, hlt, rfl, by rw [List.length_take]; omega⟩

/-- A buffer on which every returned message is whole has a sum that fits. -/
theorem sumFits_of_wholeMessage
    (hwhole : ∀ m rest, nextSipMessage .wrapping buffer = some (m, rest) →
      WholeMessage buffer m) : SumFits buffer := by
  intro h hh
  by_contra hnot
  rw [not_or, not_lt, not_lt] at hnot
  have hn : nextSipMessage .wrapping buffer = some (buffer.take (messageLen buffer h % usizeSize),
        buffer.drop (messageLen buffer h % usizeSize)) := by
    rw [nextSipMessage_of_headerEnd hh]
    exact if_neg (not_lt.mpr hnot.2)
  obtain ⟨h', hh', hlt, -, -⟩ := hwhole _ _ hn
  rw [hh] at hh'
  cases hh'
  omega

/-- Where the sum fits, a message the exact framer sees is returned by the call. -/
theorem nextSipMessage_wrapping_of_size {n : ℕ} (hfit : SumFits buffer)
    (hs : exactRecogniser.size buffer = some n) :
    nextSipMessage .wrapping buffer = some (buffer.take n, buffer.drop n) := by
  obtain ⟨h, hh, rfl, hle⟩ := exactSize_eq_some_iff.mp hs
  have hlt : messageLen buffer h < usizeSize := by
    rcases hfit h hh with hlt | hshort
    · exact hlt
    · have := Nat.mod_le (messageLen buffer h) usizeSize
      omega
  have husize : Arith.wrapping.usize (messageLen buffer h) = messageLen buffer h :=
    Nat.mod_eq_of_lt hlt
  exact nextSipMessage_eq_some_iff.mpr ⟨h, hh, by rw [husize]; exact hle, by rw [husize],
    by rw [husize]⟩

/-! ## The loop -/

/-- What follows the first message inherits the condition. -/
theorem SumsFit.drop {n : ℕ} (hfit : SumsFit buffer)
    (hs : exactRecogniser.size buffer = some n) : SumsFit (buffer.drop n) :=
  fun b hb => hfit b (.drop hs hb)

/-- A buffer whose sums fit is framed as in exact arithmetic: every call returns a whole message
and the loop ends. The induction is along the messages of the buffer. -/
theorem progress_of_sumsFit (hfit : SumsFit buffer) : Progress buffer := by
  induction buffer using exactRecogniser.frames_induction with
  | hnone b hs =>
    have hhere := hfit b (.here b)
    -- the exact call returns nothing, so the wrapping one does not either
    have hn : nextSipMessage .wrapping b = none := by
      rcases nextSipMessage_wrapping_of_sumFits hhere with hnone | hex
      · exact hnone
      · rw [hex, nextSipMessage_exact, hs]
        rfl
    refine ⟨fun b' m rest hv hm => ?_, 1, ([], b), ?_⟩
    · cases hv with
      | here => exact wholeMessage_of_sumFits hhere hm
      | next hn' =>
        rw [hn] at hn'
        cases hn'
    · rw [extractLoop, hn]
  | hsome b n hs ih =>
    have hhere := hfit b (.here b)
    have hn := nextSipMessage_wrapping_of_size hhere hs
    obtain ⟨hcalls, fuel, res, hloop⟩ := ih (hfit.drop hs)
    refine ⟨fun b' m rest hv hm => ?_, fuel + 1, (b.take n :: res.1, res.2), ?_⟩
    · cases hv with
      | here => exact wholeMessage_of_sumFits hhere hm
      | next hn' hv' =>
        rw [hn] at hn'
        cases hn'
        exact hcalls b' m rest hv' hm
    · rw [extractLoop, hn]
      simp only
      rw [hloop]
      rfl

/-- Conversely, a buffer that is framed without harm has sums that fit: the loop visits everything
the exact framer leaves. -/
theorem sumsFit_of_calls (hcalls : ∀ b m rest, Visits .wrapping buffer b →
      nextSipMessage .wrapping b = some (m, rest) → WholeMessage b m) : SumsFit buffer := by
  intro b hb
  induction hb with
  | here b => exact sumFits_of_wholeMessage fun m rest hm => hcalls b m rest (.here b) hm
  | @drop b b' n hs _ ih =>
    have hhere : SumFits b :=
      sumFits_of_wholeMessage fun m rest hm => hcalls b m rest (.here b) hm
    have hn := nextSipMessage_wrapping_of_size hhere hs
    exact ih fun b'' m rest hv hm => hcalls b'' m rest (.next hn hv) hm

/-- **When the framer makes progress.** On a buffer, every call of the extraction loop returns a
whole message without overflow and the loop ends, if and only if every sum it meets in exact
arithmetic fits a `usize` or wraps to more than there are bytes. -/
theorem progress_iff_sumsFit (buffer : Bytes) : Progress buffer ↔ SumsFit buffer :=
  ⟨fun h => sumsFit_of_calls h.1, progress_of_sumsFit⟩

/-! ## A buffer on which the loop never ends -/

/-- A header block that declares `2 ^ 64 - 40` body bytes, where `40` is the length of the block
with its delimiter. -/
def hostileBuffer : Bytes :=
  utf8 "Content-Length: 18446744073709551576\r\n\r\n".toList

/-- On `hostileBuffer` the sum wraps to zero: each call returns an empty message and leaves the
buffer as it was, so no amount of fuel ends the loop. -/
theorem progress_fails : nextSipMessage .wrapping hostileBuffer = some ([], hostileBuffer) ∧
      (∀ fuel, extractLoop .wrapping fuel hostileBuffer = none) ∧
      ¬ Progress hostileBuffer := by
  have hn : nextSipMessage .wrapping hostileBuffer = some ([], hostileBuffer) := by
    decide +kernel
  have hloop : ∀ fuel, extractLoop .wrapping fuel hostileBuffer = none := by
    intro fuel
    induction fuel with
    | zero => rfl
    | succ fuel ih =>
      rw [extractLoop, hn]
      simp only
      rw [ih]
      rfl
  refine ⟨hn, hloop, ?_⟩
  rintro ⟨-, fuel, res, hres⟩
  rw [hloop fuel] at hres
  cases hres

end GmvPjsip.Framer
