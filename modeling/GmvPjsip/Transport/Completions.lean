import GmvPjsip.Transport.Sends

/-!
# Completions of sends

* `Balanced` says that an accepted send is in the list or was completed, and only once; `Numbered`
  says which ids were given out. Every move keeps both.
* `sends_completed_once`: every accepted send has its callback called at most once, and exactly once
  when a stop returns, and no other send has. Up to `2 ^ 64` sends the ids differ, and a completion
  for an id that is not pending changes nothing.
* `send_id_reused`: the `2 ^ 64 + 1`st send has the id of the first.
-/

namespace GmvPjsip.Transport

open GmvPjsip.Auth
open GmvPjsip.Commands

/-! ## What every change keeps -/

/-- The send returned `PJ_EPENDING`. -/
def Sends.accepted (s : Sends) (n : ℕ) : Bool := s.returned[n]?.any fun r => r.status = .epending

/-- The send has a callback. -/
def Sends.awaited (s : Sends) (n : ℕ) : Bool := s.returned[n]?.any SendRecord.hasCallback

/-- The id a send took. -/
def Sends.idOf (s : Sends) (n : ℕ) : Option ℕ := s.returned[n]?.bind SendRecord.sendId

/-- The ids that were given out, in order. -/
def Sends.sendIds (s : Sends) : List ℕ := s.returned.filterMap SendRecord.sendId

/-- How often the callback of a send was called. -/
def Sends.calls (s : Sends) (n : ℕ) : ℕ := (s.invoked.map Prod.fst).count n

/-- Every accepted send is in the list or was completed, and only once; a completed send had its
callback called. -/
structure Balanced (s : Sends) : Prop where
  linked : ∀ p ∈ s.pendingSends, s.returned[p.number]? = some ⟨some p.sendId, .epending, p.hasCallback⟩
  balance : ∀ n, (s.pendingSends.map PendingSend.number).count n + s.completed.count n =
    if s.accepted n then 1 else 0
  told : ∀ n, s.calls n = if s.awaited n then s.completed.count n else 0

/-- The sends are numbered from 1, modulo `2 ^ 64`. -/
structure Numbered (s : Sends) : Prop where
  sequence : s.sendSequence = u64 s.sendIds.length
  ids : s.sendIds = (List.range s.sendIds.length).map fun i => u64 (i + 1)

/-- The newest call is the last of the list. -/
theorem returned_returns (s : Sends) (sendId : Option ℕ) (status : PjStatus) (hasCallback : Bool)
    (n : ℕ) : (s.returns sendId status hasCallback).returned[n]? =
      if n = s.returned.length then some ⟨sendId, status, hasCallback⟩ else s.returned[n]? := by
  rw [Sends.returns]
  by_cases hn : n = s.returned.length
  · rw [if_pos hn, hn, List.getElem?_concat_length]
  rw [if_neg hn]
  rcases Nat.lt_or_gt_of_ne hn with hlt | hgt
  · exact List.getElem?_append_left hlt
  · rw [List.getElem?_eq_none (Nat.le_of_lt hgt), List.getElem?_eq_none]
    rw [List.length_append]
    exact hgt

/-- It is accepted if it returned that it is pending. -/
theorem accepted_returns (s : Sends) (sendId : Option ℕ) (status : PjStatus) (hasCallback : Bool)
    (n : ℕ) : (s.returns sendId status hasCallback).accepted n =
      if n = s.returned.length then decide (status = .epending) else s.accepted n := by
  rw [Sends.accepted, returned_returns]
  split <;> rfl

/-- It is awaited if it has a callback. -/
theorem awaited_returns (s : Sends) (sendId : Option ℕ) (status : PjStatus) (hasCallback : Bool)
    (n : ℕ) : (s.returns sendId status hasCallback).awaited n =
      if n = s.returned.length then hasCallback else s.awaited n := by
  rw [Sends.awaited, returned_returns]
  split <;> rfl

variable {p : PendingSend} {s : Sends}

section Balance

variable {s : Sends} (h : Balanced s)
include h

/-- Nothing is known of a send that was not made yet. -/
theorem Balanced.fresh : (s.pendingSends.map PendingSend.number).count s.returned.length = 0 ∧
    s.completed.count s.returned.length = 0 ∧ s.calls s.returned.length = 0 := by
  have hbalance := h.balance s.returned.length
  have htold := h.told s.returned.length
  simp only [Sends.accepted, Sends.awaited, List.getElem?_eq_none (Nat.le_refl _), Option.any_none,
    Bool.false_eq_true, if_false] at hbalance htold
  omega

/-- An entry is of an earlier call. -/
theorem Balanced.number_ne (hp : p ∈ s.pendingSends) : p.number ≠ s.returned.length := by
  intro heq
  have hlinked := h.linked p hp
  rw [heq, List.getElem?_eq_none (Nat.le_refl _)] at hlinked
  exact nomatch hlinked

/-- A call that does not return `PJ_EPENDING` leaves the list as it was. -/
theorem Balanced.returns {status : PjStatus} (hstatus : status ≠ .epending) (sequence : ℕ)
    (sendId : Option ℕ) (hasCallback : Bool) :
    Balanced ({ s with sendSequence := sequence }.returns sendId status hasCallback) := by
  obtain ⟨hpending, hcompleted, hcalls⟩ := h.fresh
  refine ⟨fun p hp => ?_, fun n => ?_, fun n => ?_⟩
  · rw [returned_returns, if_neg (h.number_ne hp)]
    exact h.linked p hp
  · rw [accepted_returns]
    by_cases hn : n = s.returned.length
    · rw [if_pos hn, decide_eq_false hstatus, hn]
      exact Nat.add_eq_zero_iff.mpr ⟨hpending, hcompleted⟩
    · rw [if_neg hn]
      exact h.balance n
  · rw [awaited_returns]
    by_cases hn : n = s.returned.length
    · rw [if_pos hn, hn]
      show s.calls s.returned.length = if _ then s.completed.count s.returned.length else 0
      rw [hcalls, hcompleted, ite_self]
    · rw [if_neg hn]
      exact h.told n

/-- An accepted send keeps the balance. -/
theorem Balanced.accept (x : Send) : Balanced
    ((s.enlist x).returns (some (u64 (s.sendSequence + 1))) .epending x.hasCallback) := by
  obtain ⟨hpending, hcompleted, hcalls⟩ := h.fresh
  refine ⟨fun p hp => ?_, fun n => ?_, fun n => ?_⟩
  · rw [returned_returns]
    rcases List.mem_cons.mp hp with rfl | hp
    · exact if_pos rfl
    · exact (if_neg (h.number_ne hp)).trans (h.linked p hp)
  · rw [accepted_returns]
    show (s.returned.length :: s.pendingSends.map PendingSend.number).count n + s.completed.count n = _
    by_cases hn : n = s.returned.length
    · rw [if_pos (show n = (s.enlist x).returned.length from hn), hn, List.count_cons_self, hpending,
        hcompleted]
      rfl
    · rw [if_neg (show n ≠ (s.enlist x).returned.length from hn), List.count_cons_of_ne (Ne.symm hn)]
      exact h.balance n
  · rw [awaited_returns]
    by_cases hn : n = s.returned.length
    · rw [if_pos (show n = (s.enlist x).returned.length from hn), hn]
      show s.calls s.returned.length = if _ then s.completed.count s.returned.length else 0
      rw [hcalls, hcompleted, ite_self]
    · rw [if_neg (show n ≠ (s.enlist x).returned.length from hn)]
      exact h.told n

/-- So does completing one. -/
theorem Balanced.unlink {rest : List PendingSend} (hperm : s.pendingSends.Perm (p :: rest))
    (sent : Sent) : Balanced (s.unlink p rest sent) := by
  have hp := h.linked p (hperm.mem_iff.mpr List.mem_cons_self)
  have hawaited : s.awaited p.number = p.hasCallback := by rw [Sends.awaited, hp]; rfl
  refine ⟨fun q hq => ?_, fun n => ?_, fun n => ?_⟩
  · exact h.linked q (hperm.mem_iff.mpr (List.mem_cons_of_mem _ hq))
  · have hbalance := h.balance n
    rw [(hperm.map PendingSend.number).count_eq, List.map_cons, List.count_cons] at hbalance
    show (rest.map PendingSend.number).count n + (s.completed ++ [p.number]).count n =
      if s.accepted n then 1 else 0
    rw [List.count_append, List.count_singleton, ← hbalance]
    omega
  · have htold := h.told n
    show ((if p.hasCallback then s.invoked ++ [(p.number, sent)] else s.invoked).map
      Prod.fst).count n = if s.awaited n then (s.completed ++ [p.number]).count n else 0
    rw [Sends.calls] at htold
    by_cases hcallback : p.hasCallback = true
    · rw [if_pos hcallback, List.map_append, List.count_append, List.count_append, htold]
      by_cases hn : p.number = n
      · rw [← hn, hawaited, if_pos hcallback, if_pos hcallback]
        rfl
      · simp [hn]
    · rw [if_neg hcallback, htold, List.count_append]
      by_cases hn : p.number = n
      · rw [← hn, hawaited, if_neg hcallback, if_neg hcallback]
      · simp [hn]

end Balance

section

variable {commands : List SendCompletionCommand} {s s' : Sends}

/-- So does every move. -/
theorem Balanced.move (h : Balanced s) (hmove : Move commands s s') : Balanced s' := by
  cases hmove with
  | refused status hasCallback hstatus => exact h.returns hstatus s.sendSequence none hasCallback
  | rejected hasCallback => exact h.returns (by decide) _ _ hasCallback
  | accepted x => exact h.accept x
  | completed p rest sent hperm => exact h.unlink hperm sent
  | listed => exact ⟨h.linked, h.balance, h.told⟩

/-- The ids in the order they were taken. -/
theorem sendIds_returns (s : Sends) (sendId : Option ℕ) (status : PjStatus) (hasCallback : Bool) :
    (s.returns sendId status hasCallback).sendIds = s.sendIds ++ sendId.toList := by
  cases sendId <;> simp [Sends.sendIds, Sends.returns]

/-- A send that takes the next id. -/
theorem Numbered.succ {s s' : Sends} (h : Numbered s)
    (hsequence : s'.sendSequence = u64 (s.sendSequence + 1))
    (hids : s'.sendIds = s.sendIds ++ [u64 (s.sendSequence + 1)]) : Numbered s' := by
  have hnext : u64 (s.sendSequence + 1) = u64 (s.sendIds.length + 1) := by
    rw [h.sequence, u64_u64_succ]
  have hlength : s'.sendIds.length = s.sendIds.length + 1 := by rw [hids]; simp
  refine ⟨by rw [hsequence, hnext, hlength], ?_⟩
  rw [hlength, List.range_succ, List.map_append, ← h.ids, hids, hnext]
  rfl

/-- Ids are taken one after the other. -/
theorem Numbered.move (h : Numbered s) (hmove : Move commands s s') : Numbered s' := by
  cases hmove with
  | refused status hasCallback =>
    have hids := sendIds_returns s none status hasCallback
    rw [Option.toList_none, List.append_nil] at hids
    exact ⟨by rw [hids]; exact h.sequence, by rw [hids]; exact h.ids⟩
  | rejected => exact h.succ rfl (sendIds_returns _ _ _ _)
  | accepted => exact h.succ rfl (sendIds_returns _ _ _ _)
  | completed => exact ⟨h.sequence, h.ids⟩
  | listed => exact ⟨h.sequence, h.ids⟩

/-- The calls of a run are only added to. -/
theorem Move.returned (hmove : Move commands s s') : s.returned <+: s'.returned := by
  cases hmove with
  | refused => exact List.prefix_append _ _
  | rejected => exact List.prefix_append _ _
  | accepted => exact List.prefix_append _ _
  | completed => exact List.prefix_rfl
  | listed => exact List.prefix_rfl

/-- What every change keeps, a run keeps. -/
theorem Moves.invariant {P : Sends → Prop} (hstep : ∀ {s s'}, P s → Move commands s s' → P s')
    (hmoves : Moves commands s s') (h : P s) : P s' := by
  induction hmoves with
  | refl => exact h
  | tail _ hmove ih => exact hstep ih hmove

/-- What was returned stays. -/
theorem Moves.returned (hmoves : Moves commands s s') : s.returned <+: s'.returned :=
  hmoves.invariant (P := fun t => s.returned <+: t.returned) (fun h hmove => h.trans hmove.returned)
    List.prefix_rfl

end

/-- Nothing to balance at first. -/
theorem balanced_init (sendCallback : Bool) : Balanced (.init sendCallback) :=
  ⟨fun _ hp => (nomatch hp), fun _ => rfl, fun _ => rfl⟩

/-- No ids at first. -/
theorem numbered_init (sendCallback : Bool) : Numbered (.init sendCallback) := ⟨rfl, rfl⟩

/-- The ids of at most `2 ^ 64` sends differ. -/
theorem Numbered.nodup (h : Numbered s) (hfew : s.sendIds.length ≤ 2 ^ 64) : s.sendIds.Nodup := by
  rw [h.ids]
  refine List.Nodup.map_on ?_ List.nodup_range
  intro i hi j hj heq
  have hi := List.mem_range.mp hi
  have hj := List.mem_range.mp hj
  simp only [u64] at heq
  omega

/-- If no two sends have one id, the id says which send it is. -/
theorem idOf_inj (hnodup : s.sendIds.Nodup) {m n sendId : ℕ} (hm : s.idOf m = some sendId)
    (hn : s.idOf n = some sendId) : m = n := by
  have hpair := List.pairwise_iff_getElem.mp (List.pairwise_filterMap.mp hnodup)
  have hlt : ∀ {i j}, s.idOf i = some sendId → s.idOf j = some sendId → ¬ i < j := by
    intro i j hi hj hij
    obtain ⟨r, hr, hrid⟩ := Option.bind_eq_some_iff.mp hi
    obtain ⟨r', hr', hrid'⟩ := Option.bind_eq_some_iff.mp hj
    obtain ⟨hilt, rfl⟩ := List.getElem?_eq_some_iff.mp hr
    obtain ⟨hjlt, rfl⟩ := List.getElem?_eq_some_iff.mp hr'
    exact hpair i j hilt hjlt hij sendId hrid sendId hrid' rfl
  have := hlt hm hn
  have := hlt hn hm
  omega

/-! ## Main result -/

/-- No accepted send has this id. -/
def Sends.Unknown (s : Sends) (sendId : ℕ) : Prop :=
  ∀ n, s.accepted n = true → s.idOf n ≠ some sendId

/-- The send with this id was completed. -/
def Sends.Completed (s : Sends) (sendId : ℕ) : Prop :=
  ∃ n ∈ s.completed, s.idOf n = some sendId

/-- An entry is of an accepted call, with its id. -/
theorem Balanced.accepted_of_mem (h : Balanced s)
    (hp : p ∈ s.pendingSends) : s.accepted p.number = true ∧ s.idOf p.number = some p.sendId := by
  rw [Sends.accepted, Sends.idOf, h.linked p hp]
  exact ⟨rfl, rfl⟩

/-- A send is not both in the list and completed. -/
theorem Balanced.not_completed (h : Balanced s)
    (hp : p ∈ s.pendingSends) : p.number ∉ s.completed := by
  intro hcompleted
  have hbalance := h.balance p.number
  rw [(h.accepted_of_mem hp).1, if_pos rfl] at hbalance
  have hlisted := List.count_pos_iff.mpr (List.mem_map_of_mem (f := PendingSend.number) hp)
  have hcount := List.count_pos_iff.mpr hcompleted
  omega

/-- A completion of an id that is not pending does nothing. -/
theorem completion_ignored (h : Balanced s) (hnodup : s.sendIds.Nodup)
    (command : SendCompletionCommand)
    (hid : s.Unknown command.sendId ∨ s.Completed command.sendId) :
    processSendCompletion s command = s := by
  have hnone : s.pendingSends.find? (fun p => p.sendId = command.sendId) = none := by
    rw [List.find?_eq_none]
    intro p hp heq
    obtain ⟨haccepted, hpid⟩ := h.accepted_of_mem hp
    rw [of_decide_eq_true heq] at hpid
    rcases hid with hunknown | ⟨n, hcompleted, hn⟩
    · exact hunknown _ haccepted hpid
    · rw [idOf_inj hnodup hn hpid] at hcompleted
      exact h.not_completed hp hcompleted
  rw [processSendCompletion, hnone]

/-- The callback of an accepted send was called, or the send is in the list. -/
theorem Balanced.calls_add (h : Balanced s) {n : ℕ} {record : SendRecord}
    (hrecord : s.returned[n]? = some record) :
    s.calls n + (if record.hasCallback then (s.pendingSends.map PendingSend.number).count n else 0) =
      if record.status = .epending ∧ record.hasCallback then 1 else 0 := by
  have haccepted : s.accepted n = decide (record.status = .epending) := by
    rw [Sends.accepted, hrecord]
    rfl
  have hawaited : s.awaited n = record.hasCallback := by
    rw [Sends.awaited, hrecord]
    rfl
  have hbalance := h.balance n
  rw [haccepted, Nat.add_comm] at hbalance
  rw [h.told n, hawaited]
  cases record.hasCallback with
  | false => simp
  | true => simpa using hbalance

/-- **Every accepted send is completed once.** Over any run, `s` is what the run leads to and `s'`
what a stop then makes of it; both are reached. The callback of a send is called at most once if the
send returned `PJ_EPENDING` and never if it did not, and when the stop returns it was called once if
the send returned `PJ_EPENDING`, be it one that the stop itself brought about. As long as no more
than `2 ^ 64` ids were given out they differ, and a completion for an unknown id, or for one that was
completed, changes nothing. -/
theorem sends_completed_once (sendCallback : Bool) (ops : List SendOp) :
    ∃ s s', runSends sendCallback ops = some s ∧ runSends sendCallback (ops ++ [.stop]) = some s' ∧
      s.returned <+: s'.returned ∧
      (s'.sendIds.length ≤ 2 ^ 64 → s'.sendIds.Nodup) ∧
      (∀ n record, s.returned[n]? = some record →
        s.calls n ≤ if record.status = .epending ∧ record.hasCallback then 1 else 0) ∧
      (∀ n record, s'.returned[n]? = some record →
        s'.calls n = if record.status = .epending ∧ record.hasCallback then 1 else 0) ∧
      (s.sendIds.length ≤ 2 ^ 64 → ∀ command : SendCompletionCommand,
        s.Unknown command.sendId ∨ s.Completed command.sendId →
        processSendCompletion s command = s) := by
  obtain ⟨s, hrun, hmoves⟩ := runSends_spec sendCallback ops
  obtain ⟨s', hrelease, hmoves', hempty⟩ := s.release_spec
  have hbalanced : Balanced s := hmoves.invariant Balanced.move (balanced_init sendCallback)
  have hnumbered : Numbered s := hmoves.invariant Numbered.move (numbered_init sendCallback)
  have hstop : runSends sendCallback (ops ++ [.stop]) = some s' := by
    rw [runSends] at hrun ⊢
    rw [List.foldlM_append, hrun]
    simpa [Sends.step] using hrelease
  refine ⟨s, s', hrun, hstop, hmoves'.returned, ?_, ?_, ?_, ?_⟩
  · exact (hmoves'.invariant Numbered.move hnumbered).nodup
  · intro n record hrecord
    exact Nat.le.intro (hbalanced.calls_add hrecord)
  · intro n record hrecord
    have hcalls := (hmoves'.invariant Balanced.move hbalanced).calls_add hrecord
    rw [hempty] at hcalls
    simpa using hcalls
  · exact fun hfew => completion_ignored hbalanced (hnumbered.nodup hfew)

/-- A send on a transport that takes everything. -/
def plainSend (transport : ℕ) (further : List Send) : Send where
  transport := transport
  outcome := { encode := none, dataLen := 1, callocOk := true, sendStatus := .success }
  hasCallback := true
  further := further

/-- So many plain sends in a row. -/
theorem runSends_plain (count : ℕ) :
    ∃ s, runSends true (List.replicate count (.send (plainSend 1 []))) = some s ∧
      s.sendCallback = true ∧ s.shutdown = [] ∧ s.sendSequence = u64 count ∧
      s.returned = (List.range count).map fun i => ⟨some (u64 (i + 1)), .epending, true⟩ := by
  induction count with
  | zero => exact ⟨_, rfl, rfl, rfl, rfl, rfl⟩
  | succ count ih =>
    obtain ⟨s, hrun, hcallback, hshutdown, hsequence, hreturned⟩ := ih
    have hsend : customTransportSend s (plainSend 1 []) = (s.enlist (plainSend 1 [])).returns
        (some (u64 (s.sendSequence + 1))) .epending true := by
      simp [customTransportSend, hcallback, hshutdown, plainSend, Sends.enlist]
    refine ⟨customTransportSend s (plainSend 1 []), ?_, ?_⟩
    · rw [runSends] at hrun ⊢
      rw [List.replicate_succ', List.foldlM_append, hrun]
      rfl
    · rw [hsend]
      refine ⟨hcallback, hshutdown, ?_, ?_⟩
      · show u64 (s.sendSequence + 1) = u64 (count + 1)
        rw [hsequence, u64_u64_succ]
      · show s.returned ++ [⟨some (u64 (s.sendSequence + 1)), .epending, true⟩] = _
        rw [hreturned, hsequence, u64_u64_succ, List.range_succ, List.map_append]
        rfl

/-- The number of the send after `2 ^ 64` others is that of the first, and both are pending. -/
theorem send_id_reused :
    ∃ s, runSends true (List.replicate (2 ^ 64 + 1) (.send (plainSend 1 []))) = some s ∧
      s.returned[0]? = some ⟨some 1, .epending, true⟩ ∧
      s.returned[2 ^ 64]? = some ⟨some 1, .epending, true⟩ := by
  obtain ⟨s, hrun, -, -, -, hreturned⟩ := runSends_plain (2 ^ 64 + 1)
  refine ⟨s, hrun, ?_, ?_⟩ <;> rw [hreturned, List.getElem?_map, List.getElem?_range (by omega)] <;>
    rfl

end GmvPjsip.Transport
