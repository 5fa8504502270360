import GmvPjsip.Framer.Values

/-!
# Do the two framers agree?

The socket layer cuts a message out of the stream with `next_sip_message`, and the shim looks at it
again with `gmv_complete_sip_message_len`. Where the sum of the lengths fits a `usize` both find the
same delimiter in it, so that the question is the number each takes from the header block. Where the sum
wraps around, the message ends in front of its delimiter, and the shim looks for two line feeds.

* `SocketTakes headers n`, `ShimTakes headers n`: the number each takes, in terms of the text of the
  header block. `socketTakes_iff` and `shimTakes_iff` say that the code takes these numbers.
* `Agree buffer h`: the condition on the text of a buffer whose header block ends at `h`.
* `framers_agree`: a message that is cut out is one complete message for the shim exactly under this
  condition. `framers_differ` shows what happens on other header blocks.
-/

namespace GmvPjsip.Framer

open GmvPjsip.Lib GmvPjsip.Auth GmvPjsip.Calls

/-! ## The number in a header block -/

/-- The number the socket layer takes from a header block: the first one that a `Content-Length` value
spells, if the block is UTF-8. It takes 0 if it is not, and if no value spells a number. -/
def SocketTakes (headers : Bytes) (n : ℕ) : Prop :=
  (∃ text, headers = utf8 text) ∧ First SpellsLength (lengthValues headers) n ∨
    n = 0 ∧ ((¬∃ text, headers = utf8 text) ∨ ∀ value ∈ lengthValues headers, ∀ k, ¬SpellsLength value k)

/-- The number the shim takes from a header block: the one that the first `Content-Length` value begins
with. It takes 0 if there is no such value, if it has 32 bytes or more, and if it begins with no number. -/
def ShimTakes (headers : Bytes) (n : ℕ) : Prop :=
  (∃ value ∈ (lengthValues headers).head?, value.length < 32 ∧ BeginsUlong value n) ∨
    n = 0 ∧ ∀ value ∈ (lengthValues headers).head?, value.length < 32 → ∀ k, ¬BeginsUlong value k

/-- The socket layer takes the number that the text says. -/
theorem socketTakes_iff {headers : Bytes} {n : ℕ} :
    SocketTakes headers n ↔ (contentLength headers).getD 0 = n := by
  have hutf8 : (∃ text, headers = utf8 text) ↔ (fromUtf8 headers).isSome := by
    rw [Option.isSome_iff_exists]
    exact exists_congr fun text => fromUtf8_eq_some_iff.symm
  unfold SocketTakes
  rw [hutf8, contentLength_eq]
  by_cases hsome : (fromUtf8 headers).isSome = true
  · rw [if_pos hsome, ← findSome?_eq_some_iff_first fun _ _ => readUsize_eq_some_iff,
      ← findSome?_eq_none_iff_forall fun _ _ => readUsize_eq_some_iff]
    cases (lengthValues headers).findSome? readUsize with
    | none => simp [hsome, eq_comm]
    | some k => simp [hsome]
  · rw [if_neg hsome]
    simp [hsome, eq_comm]

/-- The shim takes the number that the text says. -/
theorem shimTakes_iff {headers : Bytes} {n : ℕ} :
    ShimTakes headers n ↔ sipContentLength headers = n := by
  unfold ShimTakes
  rw [sipContentLength_eq]
  simp only [← strtoul_eq_some_iff]
  cases (lengthValues headers).head? with
  | none => simp [eq_comm]
  | some value =>
    by_cases hlong : 32 ≤ value.length
    · simp [hlong, Nat.not_lt.mpr hlong, eq_comm]
    · cases hread : strtoul value with
      | none => simp [hlong, hread, eq_comm]
      | some k => simp [hlong, hread, Nat.not_le.mp hlong]

/-! ## The message -/

/-- The shim sees a message without the delimiter of four bytes as complete: it is empty, or it has two
line feeds and the number in front of the first of them is the number of bytes behind them. -/
def ShortAgrees (message : Bytes) : Prop :=
  message = [] ∨ ∃ i, indexOfSlice [10, 10] message = some i ∧
    ShimTakes (message.take i) (message.length - (i + 2))

/-- The two framers agree on the message in front of a buffer whose header block ends at `h`. The socket
layer takes the number `n` from the block. If the sum of the lengths does not wrap, the shim is to take
the same number; if it wraps, the message is cut off in front of the end of its delimiter. -/
def Agree (buffer : Bytes) (h : ℕ) : Prop :=
  ∃ n, SocketTakes (buffer.take h) n ∧
    if h + 4 ≤ (h + 4 + n) % usizeSize then ShimTakes (buffer.take h) n
    else ShortAgrees (buffer.take ((h + 4 + n) % usizeSize))

section message

variable {buffer m rest : Bytes} {h : ℕ}

/-- The sum of the shim is the length of the packet exactly if its number is what is left of it. -/
theorem sum_eq_iff {front total k : ℕ} (hfront : 0 < front) (hle : front ≤ total)
    (htotal : total < usizeSize) (hk : k < usizeSize) :
    (if (front + k) % usizeSize ≤ total then (front + k) % usizeSize else 0) = total ↔
      k = total - front := by
  constructor
  · intro heq
    split_ifs at heq with hwithin
    · rw [usizeSize] at *
      omega
    · omega
  · rintro rfl
    rw [Nat.add_sub_cancel' hle, Nat.mod_eq_of_lt htotal, if_pos le_rfl]

/-- A message that goes up to the end of its delimiter or further: the shim finds that delimiter. -/
theorem completeSipMessageLen_long {len : ℕ} (hh : headerEnd buffer = some h)
    (hlen : len ≤ buffer.length) (hlong : h + 4 ≤ len) (hfit : len < usizeSize) :
    completeSipMessageLen (buffer.take len) = len ↔ ShimTakes (buffer.take h) (len - (h + 4)) := by
  have hend : headerEnd (buffer.take len) = some h := indexOfSlice_take crlfcrlf_ne_nil hh hlong
  have htake : (buffer.take len).take h = buffer.take h := by
    rw [List.take_take, Nat.min_eq_left (by omega)]
  rw [completeSipMessageLen_of_headerEnd hend, htake, List.length_take, Nat.min_eq_left hlen,
    sum_eq_iff (by omega) hlong hfit (sipContentLength_lt _), shimTakes_iff]

/-- A message that ends in front of the end of its delimiter: the shim looks for two line feeds. -/
theorem completeSipMessageLen_short {len : ℕ} (hh : headerEnd buffer = some h)
    (hlen : len ≤ buffer.length) (hshort : len < h + 4) (hfit : len < usizeSize) :
    completeSipMessageLen (buffer.take len) = len ↔ ShortAgrees (buffer.take len) := by
  have htake : (buffer.take len).length = len := by
    rw [List.length_take, Nat.min_eq_left hlen]
  have hnone : indexOfSlice crlfcrlf (buffer.take len) = none := by
    refine Option.eq_none_iff_forall_ne_some.mpr fun i hi => ?_
    -- a delimiter in the message would be the first one of the buffer, and that one ends later
    have hwhole := indexOfSlice_append crlfcrlf_ne_nil hi (buffer.drop len)
    rw [List.take_append_drop] at hwhole
    obtain rfl := Option.some.inj (hh.symm.trans hwhole)
    rcases indexOfSlice_add_length_le hi with hle | hnil
    · rw [htake] at hle
      exact absurd hle (Nat.not_le.mpr hshort)
    · exact absurd hnil crlfcrlf_ne_nil
  unfold completeSipMessageLen ShortAgrees sipHeaderEnd
  rw [hnone, htake]
  cases hfeeds : indexOfSlice [10, 10] (buffer.take len) with
  | none =>
    have hempty : buffer.take len = [] ↔ 0 = len := by
      rw [← List.length_eq_zero_iff, htake, eq_comm]
    simp [hempty]
  | some i =>
    have hwithin : i + 2 ≤ len := by
      rcases indexOfSlice_add_length_le hfeeds with hle | hnil
      · rwa [htake] at hle
      · cases hnil
    have hne : buffer.take len ≠ [] := List.ne_nil_of_length_pos (by omega)
    simp only [Option.map_some, hne, false_or, Option.some.injEq, exists_eq_left', shimTakes_iff]
    rw [sum_eq_iff (by omega) hwithin hfit (sipContentLength_lt _)]

/-- What the socket layer takes from a header block is a `usize`. -/
theorem contentLength_lt (headers : Bytes) : (contentLength headers).getD 0 < usizeSize := by
  rcases socketTakes_iff.mpr rfl with ⟨-, front, value, back, -, ⟨-, number, -, -, -, hspells⟩, -⟩ |
    ⟨hzero, -⟩
  · obtain ⟨-, -, -, -, -, -, -, hfit⟩ := hspells
    exact hfit
  · rw [hzero]
    decide

/-- **Where the two framers agree.** Let `next_sip_message` take a message off a buffer, in a release
build, where the sum of the lengths may wrap around; a build that checks the sum returns the same message
or none. For the shim the message is complete and of the same length exactly if the text of the buffer
says so: if the sum does not wrap, the first number a `Content-Length` value spells in a UTF-8 block, or
0, is the number that the first such value begins with, or 0; if it wraps, the message is empty or its two
line feeds and the number in front of them make it complete. The shim logs the message as one under the
same condition, unless it is empty. -/
theorem framers_agree (hm : nextSipMessage .wrapping buffer = some (m, rest))
    (hh : headerEnd buffer = some h) :
    (completeSipMessageLen m = m.length ↔ Agree buffer h) ∧
      (completeSipPackets m = [m] ↔ m ≠ [] ∧ Agree buffer h) := by
  have hiff : completeSipMessageLen m = m.length ↔ Agree buffer h := by
    obtain ⟨h', hh', hle, rfl, -⟩ := nextSipMessage_eq_some_iff.mp hm
    obtain rfl : h = h' := Option.some.inj (hh.symm.trans hh')
    have hnumber := contentLength_lt (buffer.take h)
    have hagree : Agree buffer h ↔
        if h + 4 ≤ Arith.wrapping.usize (messageLen buffer h) then
          ShimTakes (buffer.take h) ((contentLength (buffer.take h)).getD 0)
        else ShortAgrees (buffer.take (Arith.wrapping.usize (messageLen buffer h))) := by
      simp only [Agree, socketTakes_iff, exists_eq_left']
      rfl
    have hmod : Arith.wrapping.usize (messageLen buffer h) =
        (h + 4 + (contentLength (buffer.take h)).getD 0) % usizeSize := rfl
    have hfit : Arith.wrapping.usize (messageLen buffer h) < usizeSize :=
      Nat.mod_lt _ (by decide)
    rw [hagree, List.length_take, Nat.min_eq_left hle]
    generalize hlen : Arith.wrapping.usize (messageLen buffer h) = len at *
    by_cases hlong : h + 4 ≤ len
    · have hrest : len - (h + 4) = (contentLength (buffer.take h)).getD 0 := by
        rw [usizeSize] at *
        omega
      rw [if_pos hlong, completeSipMessageLen_long hh hle hlong hfit, hrest]
    · rw [if_neg hlong, completeSipMessageLen_short hh hle (Nat.not_le.mp hlong) hfit]
  refine ⟨hiff, ?_⟩
  by_cases hne : m = []
  · subst hne
    exact iff_of_false (by decide) fun hboth => hboth.1 rfl
  · rw [completeSipPackets_eq_singleton_iff hne, hiff, and_iff_right hne]

end message

/-- A message with a plain header block in front of a buffer. -/
theorem framers_agree_plain :
    nextSipMessage .wrapping (ascii "CSeq: 1 BYE\r\nContent-Length:  2\r\n\r\nhi!") =
        some (ascii "CSeq: 1 BYE\r\nContent-Length:  2\r\n\r\nhi", ascii "!") ∧
      completeSipMessageLen (ascii "CSeq: 1 BYE\r\nContent-Length:  2\r\n\r\nhi") = 37 ∧
      completeSipPackets (ascii "CSeq: 1 BYE\r\nContent-Length:  2\r\n\r\nhi") =
        [ascii "CSeq: 1 BYE\r\nContent-Length:  2\r\n\r\nhi"] := by
  have hm : nextSipMessage .wrapping (ascii "CSeq: 1 BYE\r\nContent-Length:  2\r\n\r\nhi!") =
      some (ascii "CSeq: 1 BYE\r\nContent-Length:  2\r\n\r\nhi", ascii "!") := by
    decide +kernel
  have hh : headerEnd (ascii "CSeq: 1 BYE\r\nContent-Length:  2\r\n\r\nhi!") = some 31 := by
    decide +kernel
  have hblock : (ascii "CSeq: 1 BYE\r\nContent-Length:  2\r\n\r\nhi!").take 31 =
      utf8 "CSeq: 1 BYE\r\nContent-Length:  2".toList := by
    decide +kernel
  have hvalues : lengthValues (utf8 "CSeq: 1 BYE\r\nContent-Length:  2".toList) = [utf8 ['2']] := by
    decide +kernel
  have hspells : SpellsUsize ['2'] 2 :=
    ⟨[], ['2'], rfl, Or.inl rfl, by decide, List.forall_mem_singleton.mpr rfl, by decide, by decide⟩
  have hsocket : SocketTakes (utf8 "CSeq: 1 BYE\r\nContent-Length:  2".toList) 2 := by
    refine Or.inl ⟨⟨_, rfl⟩, [], utf8 ['2'], [], hvalues, ?_, fun _ hx => absurd hx List.not_mem_nil⟩
    exact ⟨[], ['2'], [], rfl, fun _ hc => absurd hc List.not_mem_nil, hspells⟩
  have hshim : ShimTakes (utf8 "CSeq: 1 BYE\r\nContent-Length:  2".toList) 2 := by
    refine Or.inl ⟨utf8 ['2'], by rw [hvalues]; rfl, by decide, ?_⟩
    exact ⟨[], [], [50], [], rfl, List.forall_mem_nil _, Or.inl rfl, by decide,
      List.forall_mem_singleton.mpr rfl, by simp, by decide⟩
  have hagree : Agree (ascii "CSeq: 1 BYE\r\nContent-Length:  2\r\n\r\nhi!") 31 := by
    refine ⟨2, hblock ▸ hsocket, ?_⟩
    rw [if_pos (by decide)]
    exact hblock ▸ hshim
  obtain ⟨hlen, hone⟩ := framers_agree hm hh
  exact ⟨hm, hlen.mpr hagree, hone.mpr ⟨by decide, hagree⟩⟩

/-- Header blocks on which the framers take different numbers, each with the length of the message
that `next_sip_message` cuts out and what the shim makes of it: a value with a letter at its end,
which only `strtoul` accepts; a negative one, which wraps around; a repeated line, of which the
socket layer takes the first that parses; and a byte that is not UTF-8 elsewhere in the block, with
which the socket layer ignores the length. -/
theorem framers_differ : (nextSipMessage .wrapping (ascii "Content-Length: 5x\r\n\r\n")).map
        (fun p => (p.1.length, completeSipMessageLen p.1)) = some (22, 0) ∧
      (nextSipMessage .wrapping (ascii "Content-Length: -1\r\n\r\n")).map
        (fun p => (p.1.length, completeSipMessageLen p.1)) = some (22, 21) ∧
      (nextSipMessage .wrapping (ascii "Content-Length: x\r\nContent-Length: 2\r\n\r\nhi")).map
        (fun p => (p.1.length, completeSipMessageLen p.1)) = some (42, 40) ∧
      (nextSipMessage .wrapping
          (ascii "Subject: " ++ [0xD6] ++ ascii "\r\nContent-Length: 2\r\n\r\nhi")).map
        (fun p => (p.1.length, completeSipMessageLen p.1)) = some (33, 0) := by
  refine ⟨?_, ?_, ?_, ?_⟩ <;> decide +kernel

end GmvPjsip.Framer
