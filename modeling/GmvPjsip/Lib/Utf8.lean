import GmvPjsip.Lib.RustStr
import GmvPjsip.Lib.Search
import Mathlib.Data.List.Induction

/-!
# ASCII bytes in UTF-8

A scanner written for bytes and a parser written for characters can be compared because an ASCII
byte never occurs inside the encoding of another character. The byte `b` of an ASCII character `c`
is given by the equation `String.utf8EncodeChar c = [b]`.

* `fromUtf8_eq_some_iff`: decoding is the inverse of `utf8`.
* `utf8_eq_append_cons`: an encoding that is cut at an ASCII byte is the encoding of a text that is
  cut at the character, and `splitOn_utf8` says so of all the cuts.
* `dropWhile_utf8` and `rdropWhile_utf8`: trimming bytes trims the text, for a predicate that says
  the same of a character and of its bytes; `map_utf8` maps bytes under the same proviso.
-/

namespace GmvPjsip.Lib

/-! ## Decoding -/

/-- Decoding is the inverse of `utf8`. -/
theorem fromUtf8_eq_some_iff {bytes : List UInt8} {text : List Char} :
    fromUtf8 bytes = some text ↔ bytes = utf8 text := by
  constructor
  · intro h
    obtain ⟨chars, hchars, rfl⟩ := Option.map_eq_some_iff.mp h
    have hsome : bytes.toByteArray.utf8Decode?.isSome = true := by
      rw [hchars]
      rfl
    have hencode := ByteArray.utf8Encode_get_utf8Decode? (h := hsome)
    have hget : bytes.toByteArray.utf8Decode?.get hsome = chars := by simp [hchars]
    rw [hget] at hencode
    have hdata := congrArg (fun a : ByteArray => a.data.toList) hencode
    simpa [List.utf8Encode, utf8] using hdata.symm
  · rintro rfl
    exact fromUtf8_utf8 text

theorem utf8_injective : Function.Injective utf8 := by
  intro a b h
  have hread := fromUtf8_utf8 a
  rw [h, fromUtf8_utf8] at hread
  exact (Option.some.inj hread).symm

theorem utf8_cons (c : Char) (cs : List Char) :
    utf8 (c :: cs) = String.utf8EncodeChar c ++ utf8 cs := List.flatMap_cons

theorem utf8_concat (cs : List Char) (c : Char) :
    utf8 (cs ++ [c]) = utf8 cs ++ String.utf8EncodeChar c := by
  rw [utf8_append, utf8_cons, utf8_nil, List.append_nil]

/-! ## One character -/

theorem utf8EncodeChar_of_lt {c : Char} (hc : c.toNat < 128) :
    String.utf8EncodeChar c = [UInt8.ofNat c.toNat] := by
  have hval : c.val.toNat ≤ 127 := by
    show c.toNat ≤ 127
    omega
  rw [String.utf8EncodeChar]
  simp only [hval, if_true]
  rfl

/-- The bytes of a character that is not ASCII are not ASCII. -/
theorem le_of_mem_utf8EncodeChar {c : Char} {b : UInt8} (hc : 128 ≤ c.toNat)
    (hb : b ∈ String.utf8EncodeChar c) : 128 ≤ b.toNat := by
  have hval : ¬ c.val.toNat ≤ 127 := by
    show ¬ c.toNat ≤ 127
    omega
  rw [String.utf8EncodeChar] at hb
  simp only [hval, if_false] at hb
  -- every byte of the three longer encodings has its top bit set
  split_ifs at hb <;> simp only [List.mem_cons, List.not_mem_nil, or_false] at hb
  · rcases hb with rfl | rfl <;> simp only [UInt8.toNat_ofNat'] <;> omega
  · rcases hb with rfl | rfl | rfl <;> simp only [UInt8.toNat_ofNat'] <;> omega
  · rcases hb with rfl | rfl | rfl | rfl <;> simp only [UInt8.toNat_ofNat'] <;> omega

section Ascii

variable {c : Char} {b : UInt8}

/-- A character encoded by one byte is ASCII, and the byte is its code. -/
theorem toNat_of_utf8EncodeChar (h : String.utf8EncodeChar c = [b]) :
    c.toNat < 128 ∧ b.toNat = c.toNat := by
  have hlt : c.toNat < 128 := by
    by_contra hge
    have hlen : c.utf8Size = 1 := by
      rw [← String.length_utf8EncodeChar, h]
      rfl
    have hval := UInt32.le_iff_toNat_le.mp (Char.utf8Size_eq_one_iff.mp hlen)
    exact hge (Nat.lt_succ_of_le hval)
  rw [utf8EncodeChar_of_lt hlt] at h
  obtain rfl := (List.cons.inj h).1
  refine ⟨hlt, ?_⟩
  rw [UInt8.toNat_ofNat']
  omega

/-- **An ASCII byte stands for its character only.** -/
theorem eq_of_mem_utf8EncodeChar (h : String.utf8EncodeChar c = [b]) {d : Char}
    (hb : b ∈ String.utf8EncodeChar d) : d = c := by
  obtain ⟨hlt, hcode⟩ := toNat_of_utf8EncodeChar h
  by_cases hd : d.toNat < 128
  · rw [utf8EncodeChar_of_lt hd, List.mem_singleton] at hb
    have hnat := congrArg UInt8.toNat hb
    rw [UInt8.toNat_ofNat'] at hnat
    exact Char.toNat_inj.mp (by omega)
  · have := le_of_mem_utf8EncodeChar (not_lt.mp hd) hb
    omega

/-! ## Cutting at an ASCII byte -/

/-- An encoding that is cut at an ASCII byte is the encoding of a text cut at the character. -/
theorem utf8_eq_append_cons (h : String.utf8EncodeChar c = [b]) {text : List Char}
    {x y : List UInt8} (heq : utf8 text = x ++ b :: y) :
    ∃ s t, text = s ++ c :: t ∧ utf8 s = x ∧ utf8 t = y := by
  induction text generalizing x with
  | nil => exact absurd heq.symm (List.append_ne_nil_of_right_ne_nil _ (List.cons_ne_nil b y))
  | cons d ds ih =>
    rw [utf8_cons] at heq
    rcases List.append_eq_append_iff.mp heq with ⟨z, rfl, hz⟩ | ⟨z, hd, hz⟩
    · -- the cut lies behind the first character
      obtain ⟨s, t, rfl, rfl, rfl⟩ := ih hz
      exact ⟨d :: s, t, rfl, utf8_cons d s, rfl⟩
    · cases z with
      | nil =>
        obtain ⟨s, t, rfl, hs, rfl⟩ := ih (x := []) (by simpa using hz.symm)
        rw [utf8_eq_nil] at hs
        subst hs
        refine ⟨[d], t, rfl, ?_, rfl⟩
        rw [utf8_cons, utf8_nil, List.append_nil, hd, List.append_nil]
      | cons e es =>
        -- the cut lies inside it, so it is the character itself
        rw [List.cons_append, List.cons.injEq] at hz
        obtain ⟨rfl, rfl⟩ := hz
        have hdc : d = c := eq_of_mem_utf8EncodeChar h (by rw [hd]; simp)
        subst hdc
        have hone : x = [] ∧ es = [] := by
          rw [h, List.singleton_eq_append_iff] at hd
          simpa using hd
        obtain ⟨rfl, rfl⟩ := hone
        exact ⟨[], ds, rfl, rfl, rfl⟩

/-- The lines of an encoding are the encodings of the lines. -/
theorem splitOn_utf8 (h : String.utf8EncodeChar c = [b]) (text : List Char) :
    (utf8 text).splitOn b = (text.splitOn c).map utf8 := by
  induction text with
  | nil => rfl
  | cons d ds ih =>
    rw [utf8_cons]
    by_cases hdc : d = c
    · subst hdc
      have hleft := splitOn_append_cons (a := b) List.not_mem_nil (utf8 ds)
      have hright := splitOn_append_cons (a := d) List.not_mem_nil ds
      rw [List.nil_append] at hleft hright
      rw [h, List.singleton_append, hleft, hright, ih]
      rfl
    · have hnot : b ∉ String.utf8EncodeChar d := fun hb =>
        hdc (eq_of_mem_utf8EncodeChar h hb)
      have hcons := splitOn_append_of_notMem (a := c) (x := [d]) (by simpa using Ne.symm hdc) ds
      rw [splitOn_append_of_notMem hnot, ih, ← List.singleton_append, hcons]
      cases ds.splitOn c with
      | nil => rfl
      | cons t ts => simp [utf8_cons]

end Ascii

/-! ## Trimming and mapping -/

section Trim

variable {p : Char → Bool} {q : UInt8 → Bool}

theorem dropWhile_utf8 (h : ∀ c, ∀ b ∈ String.utf8EncodeChar c, q b = p c) (text : List Char) :
    (utf8 text).dropWhile q = utf8 (text.dropWhile p) := by
  induction text with
  | nil => rfl
  | cons c cs ih =>
    rw [utf8_cons]
    by_cases hc : p c = true
    · rw [List.dropWhile_cons_of_pos hc, List.dropWhile_append_of_pos, ih]
      exact fun b hb => (h c b hb).trans hc
    · rw [List.dropWhile_cons_of_neg hc, utf8_cons]
      cases henc : String.utf8EncodeChar c with
      | nil => exact absurd henc String.utf8EncodeChar_ne_nil
      | cons b bs =>
        have hb : ¬ q b = true := by
          rw [h c b (by rw [henc]; exact List.mem_cons_self)]
          exact hc
        rw [List.cons_append, List.dropWhile_cons_of_neg hb]

theorem rdropWhile_utf8 (h : ∀ c, ∀ b ∈ String.utf8EncodeChar c, q b = p c) (text : List Char) :
    (utf8 text).rdropWhile q = utf8 (text.rdropWhile p) := by
  induction text using List.reverseRecOn with
  | nil => rfl
  | append_singleton cs c ih =>
    rw [utf8_concat]
    by_cases hc : p c = true
    · rw [List.rdropWhile_concat_pos _ _ _ hc, ← ih, List.rdropWhile, List.rdropWhile,
        List.reverse_append, List.dropWhile_append_of_pos]
      exact fun b hb => (h c b (List.mem_reverse.mp hb)).trans hc
    · rw [List.rdropWhile_concat_neg _ _ _ hc, utf8_concat]
      rcases List.eq_nil_or_concat (String.utf8EncodeChar c) with henc | ⟨bs, b, henc⟩
      · exact absurd henc String.utf8EncodeChar_ne_nil
      · rw [List.concat_eq_append] at henc
        have hb : ¬ q b = true := by
          rw [h c b (by rw [henc]; simp)]
          exact hc
        rw [henc, ← List.append_assoc, List.rdropWhile_concat_neg _ _ _ hb]

end Trim

/-- Mapping the bytes of a text maps the text, for functions that agree on each character. -/
theorem map_utf8 {f : Char → Char} {g : UInt8 → UInt8}
    (h : ∀ c, (String.utf8EncodeChar c).map g = String.utf8EncodeChar (f c)) (text : List Char) :
    (utf8 text).map g = utf8 (text.map f) := by
  induction text with
  | nil => rfl
  | cons c cs ih => rw [utf8_cons, List.map_append, ih, h, List.map_cons, utf8_cons]

end GmvPjsip.Lib
