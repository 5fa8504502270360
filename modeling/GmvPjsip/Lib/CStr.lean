import GmvPjsip.Lib.Utf8

/-!
# The parts of C's string functions the program uses

* `strtoul` is `strtoul(text, &end, 10)` where `unsigned long` has 64 bits. It reads a number off
  the front of a text and ignores what follows; `strtoul_eq_some_iff` says which number a text begins
  with.
-/

namespace GmvPjsip.Lib

/-- `isspace` in the C locale. -/
def isSpace (b : UInt8) : Bool := b = 32 || (9 ≤ b && b ≤ 13)

/-- `isdigit`. -/
def isDigit (b : UInt8) : Bool := 48 ≤ b && b ≤ 57

/-- An optional sign: whether it is a minus, and what follows. -/
def takeSign : List UInt8 → Bool × List UInt8
  | [] => (false, [])
  | b :: bs => if b = 45 then (true, bs) else if b = 43 then (false, bs) else (false, b :: bs)

/-- The value of a string of digits, read behind `acc`. -/
def digitsValue (acc : ℕ) (digits : List UInt8) : ℕ :=
  digits.foldl (fun v b => v * 10 + (b.toNat - 48)) acc

/-- `strtoul(text, &end, 10)`, or `none` where it sets `end` to `text`: white space is skipped, a
sign may follow, and digits are read up to the first byte that is none, be it the NUL. A number
that does not fit is `ULONG_MAX`, whatever its sign, and a negative one is negated in
`unsigned long`. -/
def strtoul (text : List UInt8) : Option ℕ :=
  let (negative, rest) := takeSign (text.dropWhile isSpace)
  let digits := rest.takeWhile isDigit
  let value := digitsValue 0 digits
  if digits = [] then none
  else if usizeSize ≤ value then some (usizeSize - 1)
  else if negative then some ((usizeSize - value) % usizeSize)
  else some value

/-- What is read fits an `unsigned long`. -/
theorem strtoul_lt {text : List UInt8} {n : ℕ} (h : strtoul text = some n) : n < usizeSize := by
  have hpos : 0 < usizeSize := by decide
  simp only [strtoul] at h
  split_ifs at h with hnone hbig hneg
  · cases h
    omega
  · cases h
    exact Nat.mod_lt _ hpos
  · cases h
    exact not_le.mp hbig

/-- A text begins with a number: white space, an optional sign, digits, and then no further digit. -/
def BeginsUlong (text : List UInt8) (n : ℕ) : Prop :=
  ∃ spaces sign digits rest, text = spaces ++ (sign ++ (digits ++ rest)) ∧
    (∀ b ∈ spaces, isSpace b) ∧ (sign = [] ∨ sign = [43] ∨ sign = [45]) ∧
    digits ≠ [] ∧ (∀ b ∈ digits, isDigit b) ∧ (∀ b ∈ rest.head?, isDigit b = false) ∧
    n = if usizeSize ≤ digitsValue 0 digits then usizeSize - 1
      else if sign = [45] then (usizeSize - digitsValue 0 digits) % usizeSize
      else digitsValue 0 digits

/-- A sign and what follows it. -/
theorem takeSign_append {sign rest : List UInt8} (hsign : sign = [] ∨ sign = [43] ∨ sign = [45])
    (hrest : ∀ b ∈ rest.head?, b ≠ 43 ∧ b ≠ 45) :
    takeSign (sign ++ rest) = (decide (sign = [45]), rest) := by
  rcases hsign with rfl | rfl | rfl
  · cases rest with
    | nil => rfl
    | cons b bs =>
      obtain ⟨hplus, hminus⟩ := hrest b rfl
      simp [takeSign, hplus, hminus]
  · rfl
  · rfl

/-- A sign is taken off a text. -/
theorem exists_sign (text : List UInt8) : ∃ sign, text = sign ++ (takeSign text).2 ∧
    (sign = [] ∨ sign = [43] ∨ sign = [45]) ∧ ((takeSign text).1 = true ↔ sign = [45]) := by
  cases text with
  | nil => exact ⟨[], rfl, Or.inl rfl, by simp [takeSign]⟩
  | cons b bs =>
    by_cases hminus : b = 45
    · exact ⟨[45], by simp [takeSign, hminus], Or.inr (Or.inr rfl), by simp [takeSign, hminus]⟩
    by_cases hplus : b = 43
    · exact ⟨[43], by simp [takeSign, hplus], Or.inr (Or.inl rfl), by simp [takeSign, hplus]⟩
    · exact ⟨[], by simp [takeSign, hminus, hplus], Or.inl rfl, by simp [takeSign, hminus, hplus]⟩

/-- A digit is neither white space nor a sign. -/
theorem not_isSpace_of_isDigit {b : UInt8} (h : isDigit b = true) :
    isSpace b = false ∧ b ≠ 43 ∧ b ≠ 45 := by
  have hrange : 48 ≤ b.toNat ∧ b.toNat ≤ 57 := by
    simpa [isDigit, UInt8.le_iff_toNat_le] using h
  have hspace : ¬isSpace b = true := by
    simp only [isSpace, Bool.or_eq_true, Bool.and_eq_true, decide_eq_true_eq, UInt8.le_iff_toNat_le,
      ← UInt8.toNat_inj]
    simp
    omega
  refine ⟨Bool.not_eq_true _ ▸ hspace, ?_, ?_⟩ <;> rintro rfl <;> exact absurd hrange.1 (by decide)

/-- **`strtoul` reads exactly the number a text begins with.** -/
theorem strtoul_eq_some_iff {text : List UInt8} {n : ℕ} :
    strtoul text = some n ↔ BeginsUlong text n := by
  constructor
  · intro h
    obtain ⟨sign, hsplit, hsign, hminus⟩ := exists_sign (text.dropWhile isSpace)
    simp only [strtoul] at h
    generalize takeSign (text.dropWhile isSpace) = taken at h hsplit hminus
    refine ⟨text.takeWhile isSpace, sign, taken.2.takeWhile isDigit, taken.2.dropWhile isDigit, ?_,
      fun b hb => List.mem_takeWhile_imp hb, hsign, ?_, fun b hb => List.mem_takeWhile_imp hb, ?_, ?_⟩
    · rw [List.takeWhile_append_dropWhile, ← hsplit, List.takeWhile_append_dropWhile]
    · rintro hnone
      simp [hnone] at h
    · intro b hb
      have hstop := List.head?_dropWhile_not isDigit taken.2
      rwa [hb] at hstop
    · split_ifs at h ⊢ <;> simp_all
  · rintro ⟨spaces, sign, digits, rest, rfl, hspaces, hsign, hne, hdigits, hend, rfl⟩
    obtain ⟨d, ds, rfl⟩ := List.exists_cons_of_ne_nil hne
    obtain ⟨hspace, hplus, hminus⟩ := not_isSpace_of_isDigit (hdigits d List.mem_cons_self)
    have hdrop : (spaces ++ (sign ++ (d :: ds ++ rest))).dropWhile isSpace =
        sign ++ (d :: ds ++ rest) := by
      rw [List.dropWhile_append_of_pos hspaces]
      rcases hsign with rfl | rfl | rfl
      · simp [hspace]
      · rfl
      · rfl
    have htake : takeSign (sign ++ (d :: ds ++ rest)) = (decide (sign = [45]), d :: ds ++ rest) :=
      takeSign_append hsign fun b hb => by
        obtain rfl := Option.some.inj hb
        exact ⟨hplus, hminus⟩
    have hread : (d :: ds ++ rest).takeWhile isDigit = d :: ds := by
      rw [List.takeWhile_append_of_pos hdigits]
      cases rest with
      | nil => simp
      | cons b bs => simp [hend b rfl]
    rw [strtoul, hdrop, htake]
    simp only [hread, hne, if_false, decide_eq_true_eq]
    split_ifs <;> rfl

/-! ## Digits -/

/-- A digit is encoded by its own code. -/
theorem utf8EncodeChar_of_isDigit {c : Char} (hc : c.isDigit) :
    String.utf8EncodeChar c = [UInt8.ofNat c.toNat] ∧ isDigit (UInt8.ofNat c.toNat) ∧
      (UInt8.ofNat c.toNat).toNat = c.toNat := by
  have hrange : 48 ≤ c.toNat ∧ c.toNat ≤ 57 := by
    simpa [Char.isDigit, UInt32.le_iff_toNat_le] using hc
  have hcode : (UInt8.ofNat c.toNat).toNat = c.toNat := by
    rw [UInt8.toNat_ofNat']
    omega
  refine ⟨utf8EncodeChar_of_lt (by omega), ?_, hcode⟩
  simp only [isDigit, Bool.and_eq_true, decide_eq_true_eq, UInt8.le_iff_toNat_le, hcode]
  exact hrange

theorem isDigit_of_mem_utf8 {digits : List Char} (hd : ∀ c ∈ digits, c.isDigit) {b : UInt8}
    (hb : b ∈ utf8 digits) : isDigit b := by
  obtain ⟨c, hc, hmem⟩ := List.mem_flatMap.mp hb
  obtain ⟨henc, hdigit, -⟩ := utf8EncodeChar_of_isDigit (hd c hc)
  rw [henc, List.mem_singleton] at hmem
  rwa [hmem]

end GmvPjsip.Lib
