import GmvPjsip.Lifetimes.Runs

/-!
# The life cycle of records

A record is freed by whoever lets go of it last: by its removal if it is not held then, and else by the
last release.

* `life_cycle_iff`: with up to `d` holds at once every record is freed at most once, when it was removed
  and all holds are released, and not before, exactly if the counter has room for `d`.
* `freed_while_held` has the sequence for which it has not.
-/

namespace GmvPjsip.Lifetimes

open GmvPjsip.Lib.Holds

/-! ## The life cycle -/

/-- New records: nothing holds them, those with a list are in it, and nothing was freed. -/
structure Shim.Fresh (s : Shim) : Prop where
  fresh : ∀ p c, s.counters p = some c → c = .fresh
  inviteCalls : s.inviteCalls.Nodup
  subscriptions : s.subscriptions.Nodup
  listed : ∀ p, s.Listed p ↔ p.Linkable ∧ s.counters p ≠ none
  frees : s.frees = []

/-- On every record that is there no prefix of the steps has more releases than holds, and none is made
on a record that is over; no step is made on a record that is not there. -/
structure Shim.Admits (s : Shim) (ops : List Op) : Prop where
  proper : ∀ q, Proper (s.history ops q)
  there : ∀ q, s.counters q = none → s.history ops q = []

/-- No record is held more than `d` times at once. -/
def Shim.Within (s : Shim) (d : ℕ) (ops : List Op) : Prop :=
  ∀ q, ∀ before, before <+: s.history ops q → depth before ≤ d

theorem Shim.Admits.of_isPrefix {s : Shim} {before ops : List Op} (h : s.Admits ops)
    (hbefore : before <+: ops) : s.Admits before := by
  constructor
  · intro q
    exact (h.proper q).of_isPrefix (Shim.history_isPrefix hbefore)
  · intro q hq
    have hhistory := Shim.history_isPrefix (s := s) (q := q) hbefore
    rw [h.there q hq] at hhistory
    exact List.prefix_nil.mp hhistory

theorem Shim.Within.of_isPrefix {s : Shim} {d : ℕ} {before ops : List Op} (h : s.Within d ops)
    (hbefore : before <+: ops) : s.Within d before := by
  intro q first hfirst
  exact h q first (hfirst.trans (Shim.history_isPrefix hbefore))

/-- A record that lived through these steps: it was freed at most once; it was freed exactly if it was
removed and all holds are released, and then it is in no list. -/
structure Lived (s' : Shim) (q : Pointer) (steps : List Step) : Prop where
  once : s'.frees.count q ≤ 1
  freed_iff : q ∈ s'.frees ↔ Over steps
  unlisted : q ∈ s'.frees → ¬s'.Listed q

section cycle
variable {s : Shim} {ops : List Op}

theorem Shim.Fresh.linked (h : s.Fresh) : s.Linked := by
  refine ⟨h.inviteCalls, h.subscriptions, fun p => ?_⟩
  rw [h.listed]
  refine and_congr_right fun _ => ?_
  constructor
  · intro hthere
    obtain ⟨c, hc⟩ := Option.ne_none_iff_exists'.mp hthere
    refine ⟨c, hc, ?_⟩
    rw [h.fresh p c hc]
    rfl
  · rintro ⟨c, hc, -⟩
    rw [hc]
    exact Option.some_ne_none c

/-- A record that was there is there, or it was freed, once. -/
theorem Shim.Fresh.count_frees (h : s.Fresh) {s' : Shim} {q : Pointer} (hq : s.counters q ≠ none)
    (hallocated : s'.allocated q = s.allocated q) :
    s'.frees.count q = if s'.counters q = none then 1 else 0 := by
  rw [Shim.allocated, Shim.allocated, h.frees, if_pos (Option.isSome_iff_ne_none.mpr hq)] at hallocated
  cases hcounter : s'.counters q with
  | none =>
    rw [hcounter] at hallocated
    simpa using hallocated
  | some c =>
    rw [hcounter] at hallocated
    simpa using hallocated

/-- With room for the holds every record lives as it should. -/
theorem lived_of_within (hs : s.Fresh) (hops : s.Admits ops) {d : ℕ} (hdepth : s.Within d ops)
    (hd : d < unsignedSize) :
    ∃ s', s.run ops = some s' ∧ ∀ q, s.counters q ≠ none → Lived s' q (s.history ops q) := by
  have hleft : ∀ q, s.counters q ≠ none →
      Lib.Holds.run unsignedSize (s.counters q) (s.history ops q) = some (left (s.history ops q)) := by
    intro q hq
    obtain ⟨c, hc⟩ := Option.ne_none_iff_exists'.mp hq
    rw [hc, hs.fresh q c hc]
    apply run_eq (hops.proper q)
    intro before hbefore
    exact Nat.lt_of_le_of_lt (hdepth q before hbefore) hd
  have hlive : ∀ q, Lib.Holds.run unsignedSize (s.counters q) (s.history ops q) ≠ none := by
    intro q
    by_cases hq : s.counters q = none
    · rw [hq, hops.there q hq]
      exact Option.some_ne_none _
    · rw [hleft q hq]
      exact Option.some_ne_none _
  obtain ⟨s', hrun, hlinked, hallocated, hcounters⟩ := run_tracks hs.linked ops hlive
  refine ⟨s', hrun, fun q hq => ?_⟩
  have hcounter : s'.counters q = left (s.history ops q) :=
    Option.some.inj ((hcounters q).symm.trans (hleft q hq))
  have hover : s'.counters q = none ↔ Over (s.history ops q) := by
    rw [hcounter, left]
    by_cases h : Over (s.history ops q)
    · rw [if_pos h]
      exact iff_of_true rfl h
    · rw [if_neg h]
      exact iff_of_false (Option.some_ne_none _) h
  have hcount := hs.count_frees hq (hallocated q)
  have hmem : q ∈ s'.frees ↔ s'.counters q = none := by
    rw [← List.count_pos_iff, hcount]
    split_ifs with h
    · exact iff_of_true Nat.one_pos h
    · exact iff_of_false (Nat.lt_irrefl 0) h
  refine ⟨?_, hmem.trans hover, ?_⟩
  · rw [hcount]
    split_ifs
    · exact Nat.le_refl 1
    · exact Nat.zero_le 1
  · intro hfreed hlisted
    obtain ⟨-, c, hc, -⟩ := (hlinked.listed q).mp hlisted
    rw [hmem.mp hfreed] at hc
    cases hc

end cycle

/-! ## When the counter goes round -/

section wrap

/-- A runtime with one call, at address 0. -/
def oneCall : Shim where
  counters := fun p => if p = .inviteCall 0 then some .fresh else none
  inviteCalls := [0]
  subscriptions := []
  bodies := fun _ => none
  operations := fun _ => ⟨none, false, none⟩
  frees := []
  endedSessions := []

/-- The call is held `n` times, and then it is removed. -/
def heldTimes (n : ℕ) : List Op := List.replicate n (.holdInviteCall 0) ++ [.removeInviteCall 0]

theorem oneCall_fresh : oneCall.Fresh := by
  refine ⟨fun p c hc => ?_, List.nodup_singleton 0, List.nodup_nil, fun p => ?_, rfl⟩
  · simp only [oneCall] at hc
    split_ifs at hc
    exact (Option.some.inj hc).symm
  · cases p with
    | inviteCall call =>
      by_cases hcall : call = 0
      · simp [Shim.Listed, Pointer.Linkable, oneCall, hcall]
      · simp [Shim.Listed, Pointer.Linkable, oneCall, hcall]
    | subscription => simp [Shim.Listed, oneCall]
    | dialogOperation => simp [Shim.Listed, Pointer.Linkable]

theorem history_heldTimes {s : Shim} (hs : s.counters (.inviteCall 0) ≠ none) (n : ℕ) (q : Pointer) :
    s.history (heldTimes n) q = if .inviteCall 0 = q then holdsThenRemove n else [] := by
  induction n generalizing s with
  | zero =>
    show s.history [.removeInviteCall 0] q = _
    rw [Shim.history_singleton]
    exact stepsOn_singleton
  | succ n ih =>
    obtain ⟨c, hc⟩ := Option.ne_none_iff_exists'.mp hs
    have hstep : s.step (.holdInviteCall 0) = some (s.store (.inviteCall 0) (c.hold unsignedSize)) := by
      rw [Shim.step, Shim.holdInviteCall, Shim.hold, hc]
      rfl
    have hthere : (s.store (.inviteCall 0) (c.hold unsignedSize)).counters (.inviteCall 0) ≠ none := by
      rw [Shim.store_self]
      exact Option.some_ne_none _
    have hcons : heldTimes (n + 1) = .holdInviteCall 0 :: heldTimes n := rfl
    rw [hcons, Shim.history_cons hstep, ih hthere]
    show stepsOn q [(.inviteCall 0, .hold)] ++ _ = _
    rw [stepsOn_singleton]
    split_ifs
    · rfl
    · rfl

theorem oneCall_fresh_counter : oneCall.counters (.inviteCall 0) = some .fresh := by
  simp [oneCall]

theorem oneCall_there : oneCall.counters (.inviteCall 0) ≠ none := by
  rw [oneCall_fresh_counter]
  exact Option.some_ne_none _

theorem oneCall_admits (n : ℕ) : oneCall.Admits (heldTimes n) := by
  constructor
  · intro q
    rw [history_heldTimes oneCall_there]
    split_ifs
    · exact proper_holdsThenRemove n
    · exact Proper.nil
  · intro q hq
    rw [history_heldTimes oneCall_there, if_neg]
    rintro rfl
    exact oneCall_there hq

theorem oneCall_within (n : ℕ) : oneCall.Within n (heldTimes n) := by
  intro q before hbefore
  rw [history_heldTimes oneCall_there] at hbefore
  split_ifs at hbefore
  · exact depth_le_of_isPrefix hbefore
  · rw [List.prefix_nil.mp hbefore]
    exact Nat.zero_le n

/-- As many holds as the counter has values, and the call is freed by the removal. -/
theorem heldTimes_frees :
    ∃ s', oneCall.run (heldTimes unsignedSize) = some s' ∧ .inviteCall 0 ∈ s'.frees ∧
      oneCall.history (heldTimes unsignedSize) (.inviteCall 0) = holdsThenRemove unsignedSize := by
  have hwrap : Lib.Holds.run unsignedSize (oneCall.counters (.inviteCall 0))
      (oneCall.history (heldTimes unsignedSize) (.inviteCall 0)) = some none := by
    rw [history_heldTimes oneCall_there, if_pos rfl, oneCall_fresh_counter]
    exact run_wrap
  have hlive : ∀ q, Lib.Holds.run unsignedSize (oneCall.counters q)
      (oneCall.history (heldTimes unsignedSize) q) ≠ none := by
    intro q
    by_cases hq : .inviteCall 0 = q
    · rw [← hq, hwrap]
      exact Option.some_ne_none _
    · rw [history_heldTimes oneCall_there, if_neg hq]
      exact Option.some_ne_none _
  obtain ⟨s', hrun, -, hallocated, hcounters⟩ := run_tracks oneCall_fresh.linked _ hlive
  have hgone : s'.counters (.inviteCall 0) = none :=
    Option.some.inj ((hcounters (.inviteCall 0)).symm.trans hwrap)
  have hcount := oneCall_fresh.count_frees oneCall_there (hallocated (.inviteCall 0))
  rw [if_pos hgone] at hcount
  refine ⟨s', hrun, ?_, ?_⟩
  · apply List.count_pos_iff.mp
    rw [hcount]
    exact Nat.one_pos
  · rw [history_heldTimes oneCall_there, if_pos rfl]

/-- A record with holds left is not over. -/
theorem not_over_holdsThenRemove {n : ℕ} (hn : 0 < n) : ¬Over (holdsThenRemove n) := by
  have hbalanced := (proper_holdsThenRemove n).balanced (List.prefix_refl _)
  rw [over_iff_depth hbalanced, depth_holdsThenRemove]
  intro hover
  exact absurd hover.2 (Nat.ne_of_gt hn)

end wrap

theorem unsignedSize_pos : 0 < unsignedSize := Nat.two_pow_pos 32

/-- **The life cycle of records holds up to the size of the counter.** Take a sequence of calls in which
releases answer holds, no record is used that is over, and none is held more than `d` times at once. At
every point of it no freed record was used, and each record was freed at most once: exactly if it was
removed and all holds are released, and then it is in no list. This is so for all such sequences exactly if
an `unsigned` can hold `d`. -/
theorem life_cycle_iff (d : ℕ) :
    (∀ (s : Shim) (ops : List Op), s.Fresh → s.Admits ops → s.Within d ops →
      ∀ before, before <+: ops → ∃ s', s.run before = some s' ∧
        ∀ q, s.counters q ≠ none → Lived s' q (s.history before q)) ↔
      d < 2 ^ 32 := by
  constructor
  · intro h
    by_contra hd
    have hwithin : oneCall.Within d (heldTimes unsignedSize) := by
      intro q before hbefore
      exact Nat.le_trans (oneCall_within unsignedSize q before hbefore) (Nat.not_lt.mp hd)
    obtain ⟨s', hrun, hlived⟩ :=
      h oneCall _ oneCall_fresh (oneCall_admits unsignedSize) hwithin _ (List.prefix_refl _)
    obtain ⟨s'', hrun', hfreed, hhistory⟩ := heldTimes_frees
    obtain rfl := Option.some.inj (hrun.symm.trans hrun')
    have hover := (hlived (.inviteCall 0) oneCall_there).freed_iff.mp hfreed
    rw [hhistory] at hover
    exact not_over_holdsThenRemove unsignedSize_pos hover
  · intro hd s ops hs hops hdepth before hbefore
    exact lived_of_within hs (hops.of_isPrefix hbefore) (hdepth.of_isPrefix hbefore) hd

/-- A call is held 2^32 times, and a removal frees it. -/
theorem freed_while_held : oneCall.Fresh ∧ oneCall.Admits (heldTimes (2 ^ 32)) ∧
      ∃ s', oneCall.run (heldTimes (2 ^ 32)) = some s' ∧ .inviteCall 0 ∈ s'.frees ∧
        depth (oneCall.history (heldTimes (2 ^ 32)) (.inviteCall 0)) = 2 ^ 32 := by
  obtain ⟨s', hrun, hfreed, hhistory⟩ := heldTimes_frees
  refine ⟨oneCall_fresh, oneCall_admits _, s', hrun, hfreed, ?_⟩
  rw [show (2 ^ 32 : ℕ) = unsignedSize from rfl, hhistory, depth_holdsThenRemove]

end GmvPjsip.Lifetimes
