import GmvPjsip.Lib.AtomicCell
import Mathlib.Data.Nat.ModEq

/-!
# CSeq numbers

All requests of the process take their CSeq from one atomic counter, by a retry loop.

* `nextValue` is what one turn of the loop tries to store; `nextAtomicValue` runs the loop in any number
  of threads, under a schedule.
* `values_are_successive`: the values returned go around the cycle from 1 to the maximum, without a gap,
  whatever the schedule.
-/

namespace GmvPjsip.Commands.Cseq

open GmvPjsip.Lib

/-- What the loop stores over `current`.

Source: `src/runtime.rs`, `next_atomic_value`, `let next` -/
def nextValue (max current : UInt32) : UInt32 := if current ≥ max then 1 else current + 1

section
variable {Thread : Type*} [DecidableEq Thread]

/-- The counter after a schedule of calls: each call loads it once, and tries to exchange until it
succeeds.

Source: `src/runtime.rs`, `next_atomic_value` -/
def nextAtomicValue (max value : UInt32) (schedule : List (AtomicCell.Access Thread UInt32)) :
    Option (AtomicCell.State Thread UInt32) :=
  AtomicCell.run (nextValue max) (.init value) schedule

/-- Source: `src/runtime.rs`, `MAX_SIP_CSEQ` -/
def maxSipCseq : UInt32 := 2147483647

/-- Source: `src/runtime.rs`, `next_sip_cseq`, with the `SIP_CSEQ` of a new process -/
def nextSipCseq (schedule : List (AtomicCell.Access Thread UInt32)) :
    Option (AtomicCell.State Thread UInt32) :=
  nextAtomicValue maxSipCseq 0 schedule

end

section cycle
variable {max value : UInt32}

/-- The addition is only reached below the maximum, and does not overflow there. -/
theorem toNat_add_one {current : UInt32} (h : ¬ current ≥ max) :
    (current + 1).toNat = current.toNat + 1 := by
  have hlt : current.toNat < max.toNat := UInt32.lt_iff_toNat_lt.mp (UInt32.not_le.mp h)
  have hmax : max.toNat < 2 ^ 32 := max.toNat_lt
  rw [UInt32.toNat_add, UInt32.toNat_one, Nat.mod_eq_of_lt]
  omega

theorem toNat_nextValue (h : value ≤ max) :
    (nextValue max value).toNat = value.toNat % max.toNat + 1 := by
  have hle : value.toNat ≤ max.toNat := UInt32.le_iff_toNat_le.mp h
  unfold nextValue
  split_ifs with hge
  · have heq : value.toNat = max.toNat := hle.antisymm (UInt32.le_iff_toNat_le.mp hge)
    rw [heq, Nat.mod_self]
    rfl
  · rw [toNat_add_one hge, Nat.mod_eq_of_lt (UInt32.lt_iff_toNat_lt.mp (UInt32.not_le.mp hge))]

variable (hmax : 1 ≤ max) (hvalue : value ≤ max)
include hmax hvalue

/-- The cycle, by the number of steps from the value the counter starts with. -/
theorem toNat_iterate (k : ℕ) :
    ((nextValue max)^[k + 1] value).toNat = (value.toNat + k) % max.toNat + 1 := by
  induction k with
  | zero => exact toNat_nextValue hvalue
  | succ k ih =>
    have hpos : 0 < max.toNat := UInt32.le_iff_toNat_le.mp hmax
    have hlt : (value.toNat + k) % max.toNat < max.toNat := Nat.mod_lt _ hpos
    have hle : (nextValue max)^[k + 1] value ≤ max := by
      rw [UInt32.le_iff_toNat_le, ih]
      omega
    rw [Function.iterate_succ_apply', toNat_nextValue hle, ih, Nat.mod_add_mod, Nat.add_assoc]

variable {Thread : Type*} [DecidableEq Thread] {s : AtomicCell.State Thread UInt32}
  {schedule : List (AtomicCell.Access Thread UInt32)}
  (hrun : nextAtomicValue max value schedule = some s)
include hrun

/-- The value of one call, by its place among the successful exchanges. -/
theorem toNat_returned {k : ℕ} (hk : k < s.returned.length) :
    s.returned[k].2.toNat = (value.toNat + k) % max.toNat + 1 := by
  have hvalues := (AtomicCell.iterated_run hrun).returned
  have hlookup : (s.returned.map Prod.snd)[k]? = some ((nextValue max)^[k + 1] value) := by
    rw [hvalues, List.getElem?_map, List.getElem?_range hk]
    rfl
  rw [List.getElem?_map, List.getElem?_eq_getElem hk] at hlookup
  rw [← toNat_iterate hmax hvalue k, ← Option.some.inj hlookup]

omit hmax hvalue hrun in
/-- Two places less than a cycle apart are different places of the cycle. -/
theorem mod_ne_mod {m i j n : ℕ} (hij : i < j) (hjn : j < i + n) : (m + i) % n ≠ (m + j) % n := by
  intro heq
  have hdvd : n ∣ (m + j) - (m + i) := (Nat.modEq_iff_dvd' (by omega)).mp heq
  have hle : n ≤ (m + j) - (m + i) := Nat.le_of_dvd (by omega) hdvd
  omega

end cycle

/-- **CSeq numbers go around the cycle without a gap.** For any number of threads and any schedule of
their loads and exchanges, with exchanges that fail for no reason: in the order of the successful
exchanges, the calls return the numbers of the cycle `1, 2, …, max, 1, …` one after another, from the one
behind the initial value on. So none returns 0 or more than the maximum, the addition that a thread is
about to make does not overflow, and `max` calls in a row return different numbers. -/
theorem values_are_successive {Thread : Type*} [DecidableEq Thread] {max value : UInt32}
    (hmax : 1 ≤ max) (hvalue : value ≤ max) {schedule : List (AtomicCell.Access Thread UInt32)}
    {s : AtomicCell.State Thread UInt32} (hrun : nextAtomicValue max value schedule = some s) :
    s.returned.map (·.2.toNat) =
        (List.range s.returned.length).map (fun k => (value.toNat + k) % max.toNat + 1) ∧
      (∀ p ∈ s.returned, p.2 ≠ 0 ∧ p.2 ≤ max) ∧
      (∀ thread current, s.current thread = some current → ¬ current ≥ max →
        (current + 1).toNat = current.toNat + 1) ∧
      ∀ i j, (hij : i < j) → (hj : j < s.returned.length) → j < i + max.toNat →
        s.returned[i].2 ≠ s.returned[j].2 := by
  have hpos : 0 < max.toNat := UInt32.le_iff_toNat_le.mp hmax
  refine ⟨?_, ?_, fun _ _ _ hlt => toNat_add_one hlt, ?_⟩
  · refine List.ext_getElem (by simp) fun k hk _ => ?_
    rw [List.length_map] at hk
    rw [List.getElem_map, List.getElem_map, List.getElem_range]
    exact toNat_returned hmax hvalue hrun hk
  · intro p hp
    obtain ⟨k, hk, rfl⟩ := List.getElem_of_mem hp
    have hk' := toNat_returned hmax hvalue hrun hk
    have hlt : (value.toNat + k) % max.toNat < max.toNat := Nat.mod_lt _ hpos
    refine ⟨fun hzero => ?_, ?_⟩
    · rw [hzero, UInt32.toNat_zero] at hk'
      omega
    · rw [UInt32.le_iff_toNat_le, hk']
      omega
  · intro i j hij hj hjn heq
    have hi := toNat_returned hmax hvalue hrun (hij.trans hj)
    rw [heq, toNat_returned hmax hvalue hrun hj] at hi
    exact mod_ne_mod hij hjn (Nat.add_right_cancel hi).symm

/-- Three calls of two threads, with a maximum of 2: a stale load, an exchange that fails on the latest
value, and the wrap. -/
def contended : List (AtomicCell.Access Bool UInt32) :=
  [.load true 1, .load false 1, .exchange true, .failed false 2, .load true 1, .failed false 2,
   .exchange false, .failed true 1, .exchange true]

theorem contended_values_are_successive :
    ∃ s, nextAtomicValue 2 1 contended = some s ∧ s.returned = [(true, 2), (false, 1), (true, 2)] ∧
      s.returned.map (·.2.toNat) = (List.range 3).map fun k => (1 + k) % 2 + 1 := by
  obtain ⟨s, hs⟩ := Option.isSome_iff_exists.mp (show (nextAtomicValue 2 1 contended).isSome by decide)
  have hreturned : s.returned = [(true, 2), (false, 1), (true, 2)] := by
    have h : (nextAtomicValue 2 1 contended).map (·.returned) =
        some [(true, 2), (false, 1), (true, 2)] := by decide
    rw [hs] at h
    exact Option.some.inj h
  have hvalues := (values_are_successive (by decide) (by decide) hs).1
  refine ⟨s, hs, hreturned, ?_⟩
  rw [hvalues, hreturned]
  rfl

end GmvPjsip.Commands.Cseq
