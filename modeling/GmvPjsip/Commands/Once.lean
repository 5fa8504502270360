import GmvPjsip.Auth.Server
import GmvPjsip.Commands.Queues

/-!
# Every accepted command runs once

The owner here keeps a log: which commands were handed to their handlers, and which were freed
without.

* `accepted_commands_run_once`: the command of a submission that returns success is handed over by
  the first poll after it, with the field values given, and never again; if a stop comes first it is
  freed, once, and never handed over. The commands of a kind are handed over in the order they were
  submitted, and a submission that fails leaves the queues as they were.

The argument is about the ledger, which the queues refine. A call does one of four things to it
(`Move`); a command that waits stays where it is (`ofCall_of_waits`), and one that left never comes
back (`Settled.steps`).
-/

namespace GmvPjsip.Commands

open GmvPjsip.Auth

/-! ## The log -/

/-- The commands handed to their handlers and the commands freed, each in order. -/
structure Log where
  executed : List (Tagged Command)
  discarded : List (Tagged Command)
  deriving DecidableEq, Repr

/-- An owner that does nothing but keep the log. -/
def recorder : Owner Log where
  start log := log
  handle log t := { log with executed := log.executed ++ [t] }
  release log commands := { log with discarded := log.discarded ++ commands }

section
variable (pj : Pjsip) (ops : List Op)

/-- The runtime after these calls. -/
def recorded : Sys Log := run pj recorder ⟨[], []⟩ ops

/-- The commands handed over so far. -/
def executed : List (Tagged Command) := (recorded pj ops).world.executed

/-- The commands freed so far. -/
def discarded : List (Tagged Command) := (recorded pj ops).world.discarded

/-- What a submission returns after these calls. -/
def returned (alloc : Alloc) (call : Submission) : Except Refusal Unit :=
  ((recorded pj ops).submit pj alloc call).1

end

/-- The command that this call submitted. -/
def ofCall (call : ℕ) (commands : List (Tagged Command)) : List (Tagged Command) :=
  commands.filter fun t => t.call = call

/-- These calls leave the queues alone, but for new commands. -/
def Waits (ops : List Op) : Prop := ∀ op ∈ ops, op ≠ .poll ∧ op ≠ .stop

/-- Of the calls `ops`, the poll right after `done` is the one that hands over the command. -/
structure HandedOver (pj : Pjsip) (command : Tagged Command) (done ops : List Op) : Prop where
  before : ofCall command.call (executed pj done) = []
  now : ofCall command.call (executed pj (done ++ [.poll])) = [command]
  once : ofCall command.call (executed pj ops) = [command]
  kept : ofCall command.call (discarded pj ops) = []

/-- Of the calls `ops`, the stop right after `done` is the one that frees the command. -/
structure Freed (pj : Pjsip) (command : Tagged Command) (done ops : List Op) : Prop where
  before : ofCall command.call (discarded pj done) = []
  now : ofCall command.call (discarded pj (done ++ [.stop])) = [command]
  once : ofCall command.call (discarded pj ops) = [command]
  never : ofCall command.call (executed pj ops) = []

/-! ## Sorting by kind -/

/-- Sorting and filtering commute. -/
theorem filter_byKind (p : Tagged Command → Bool) (order : List Kind)
    (commands : List (Tagged Command)) :
    (byKind order commands).filter p = byKind order (commands.filter p) := by
  simp only [byKind, ofKind, List.filter_flatMap, List.filter_filter, Bool.and_comm]

/-- No commands, nothing to sort. -/
theorem byKind_nil (order : List Kind) : byKind order [] = [] := by
  simp [byKind, ofKind]

/-- Every kind is run once in a poll. -/
theorem ofKind_byKind_pollOrder (kind : Kind) (commands : List (Tagged Command)) :
    ofKind kind (byKind pollOrder commands) = ofKind kind commands := by
  have hother : ∀ kind', ofKind kind' (ofKind kind commands) =
      if kind' = kind then ofKind kind commands else [] := by
    intro kind'
    by_cases hkind : kind' = kind
    · simp [ofKind, hkind]
    · rw [if_neg hkind]
      simp only [ofKind, List.filter_filter, List.filter_eq_nil_iff]
      intro t _ hboth
      simp only [Bool.and_eq_true, decide_eq_true_eq] at hboth
      exact hkind (hboth.1.symm.trans hboth.2)
  have hsort : ofKind kind (byKind pollOrder commands) = byKind pollOrder (ofKind kind commands) :=
    filter_byKind _ _ _
  rw [hsort]
  simp only [byKind, hother]
  cases kind <;> simp [pollOrder]

/-- A poll runs every kind. -/
theorem byKind_pollOrder_singleton (t : Tagged Command) : byKind pollOrder [t] = [t] := by
  obtain ⟨call, command⟩ := t
  cases command <;> rfl

/-- A release frees every kind. -/
theorem byKind_releaseOrder_singleton (t : Tagged Command) : byKind releaseOrder [t] = [t] := by
  obtain ⟨call, command⟩ := t
  cases command <;> rfl

/-! ## What a call does to the ledger -/

/-- The log has what was handed over, in order. -/
theorem foldl_handle (commands : List (Tagged Command)) (log : Log) :
    commands.foldl recorder.handle log = { log with executed := log.executed ++ commands } := by
  induction commands generalizing log with
  | nil => simp
  | cons t rest ih =>
    rw [List.foldl_cons, ih]
    simp [recorder]

/-- A call does nothing to the pending commands, accepts one, hands all over or frees all. -/
inductive Move (l : Ledger Log) : Ledger Log → Prop
  | idle (started : Bool) : Move l { l with started := started, calls := l.calls + 1 }
  | accept (command : Command) :
      Move l { l with pending := l.pending ++ [⟨l.calls, command⟩], calls := l.calls + 1 }
  | handOver : Move l { l with
      pending := []
      calls := l.calls + 1
      world := { l.world with executed := l.world.executed ++ byKind pollOrder l.pending } }
  | free : Move l { l with
      started := false
      pending := []
      calls := l.calls + 1
      world := { l.world with discarded := l.world.discarded ++ byKind releaseOrder l.pending } }

/-- **Every call is a move.** -/
theorem step_move (pj : Pjsip) (l : Ledger Log) (op : Op) : Move l (l.step pj recorder op) := by
  cases op with
  | start =>
    simp only [Ledger.step, Ledger.start]
    split_ifs
    · exact .idle l.started
    · exact .free
    · exact .idle true
  | stop =>
    simp only [Ledger.step, Ledger.stop]
    split_ifs
    · exact .idle l.started
    · exact .free
  | poll =>
    simp only [Ledger.step, Ledger.poll, foldl_handle]
    split_ifs
    · exact .idle l.started
    · exact .handOver
  | submit alloc call =>
    simp only [Ledger.step, Ledger.submit]
    cases call.command pj alloc l.started with
    | error refusal => exact .idle l.started
    | ok command => exact .accept command

variable {l : Ledger Log} {n : ℕ} {t : Tagged Command} {pj : Pjsip} {before : List Op}
    {alloc : Alloc} {call : Submission}

/-- On a started runtime a call that neither polls nor stops at most accepts a command. -/
theorem step_of_waits (pj : Pjsip) {op : Op} (hstarted : l.started = true)
    (hop : op ≠ .poll ∧ op ≠ .stop) :
    l.step pj recorder op = { l with calls := l.calls + 1 } ∨
      ∃ command, l.step pj recorder op =
        { l with pending := l.pending ++ [⟨l.calls, command⟩], calls := l.calls + 1 } := by
  cases op with
  | start => exact .inl (by simp [Ledger.step, Ledger.start, hstarted])
  | stop => exact absurd rfl hop.2
  | poll => exact absurd rfl hop.1
  | submit alloc call =>
    cases hcommand : call.command pj alloc l.started with
    | error refusal => exact .inl (by simp [Ledger.step, Ledger.submit, hcommand])
    | ok command => exact .inr ⟨command, by simp [Ledger.step, Ledger.submit, hcommand]⟩

/-! ## Order -/

/-- Calls are numbered upwards; what was handed over came before what is pending. -/
structure Ordered (l : Ledger Log) : Prop where
  pending : ∀ t ∈ l.pending, t.call < l.calls
  executed : ∀ t ∈ l.world.executed, t.call < l.calls
  discarded : ∀ t ∈ l.world.discarded, t.call < l.calls
  sorted : l.pending.Pairwise fun t t' => t.call < t'.call
  fifo : ∀ kind, (ofKind kind l.world.executed).Pairwise fun t t' => t.call < t'.call
  later : ∀ t ∈ l.world.executed, ∀ t' ∈ l.pending, t.call < t'.call

/-- A move keeps the order. -/
theorem Ordered.move {l' : Ledger Log} (h : Ordered l) (hmove : Move l l') : Ordered l' := by
  have hlt : ∀ {t : Tagged Command}, t.call < l.calls → t.call < l.calls + 1 :=
    fun hcall => Nat.lt_succ_of_lt hcall
  cases hmove with
  | idle =>
    exact ⟨fun t ht => hlt (h.pending t ht), fun t ht => hlt (h.executed t ht),
      fun t ht => hlt (h.discarded t ht), h.sorted, h.fifo, h.later⟩
  | accept =>
    refine ⟨?_, fun t ht => hlt (h.executed t ht), fun t ht => hlt (h.discarded t ht), ?_, h.fifo, ?_⟩
    · intro t ht
      rcases List.mem_append.mp ht with hold | hnew
      · exact hlt (h.pending t hold)
      · rw [List.mem_singleton.mp hnew]
        exact Nat.lt_succ_self _
    · refine List.pairwise_append.mpr ⟨h.sorted, List.pairwise_singleton _ _, ?_⟩
      intro t ht t' ht'
      rw [List.mem_singleton.mp ht']
      exact h.pending t ht
    · intro t ht t' ht'
      rcases List.mem_append.mp ht' with hold | hnew
      · exact h.later t ht t' hold
      · rw [List.mem_singleton.mp hnew]
        exact h.executed t ht
  | handOver =>
    refine ⟨fun t ht => absurd ht List.not_mem_nil, ?_, fun t ht => hlt (h.discarded t ht),
      List.Pairwise.nil, ?_, fun t _ t' ht' => absurd ht' List.not_mem_nil⟩
    · intro t ht
      rcases List.mem_append.mp ht with hold | hnew
      · exact hlt (h.executed t hold)
      · exact hlt (h.pending t (mem_byKind.mp hnew).2)
    · intro kind
      rw [ofKind_append, ofKind_byKind_pollOrder]
      refine List.pairwise_append.mpr ⟨h.fifo kind, h.sorted.filter _, ?_⟩
      intro t ht t' ht'
      exact h.later t (List.mem_of_mem_filter ht) t' (List.mem_of_mem_filter ht')
  | free =>
    refine ⟨fun t ht => absurd ht List.not_mem_nil, fun t ht => hlt (h.executed t ht), ?_,
      List.Pairwise.nil, h.fifo, fun t _ t' ht' => absurd ht' List.not_mem_nil⟩
    intro t ht
    rcases List.mem_append.mp ht with hold | hnew
    · exact hlt (h.discarded t hold)
    · exact hlt (h.pending t (mem_byKind.mp hnew).2)

section
variable (pj : Pjsip)

/-- The ledger of a run. -/
def recordedLedger (ops : List Op) : Ledger Log := ledger pj recorder ⟨[], []⟩ ops

/-- A run may be cut anywhere. -/
theorem recordedLedger_append (before after : List Op) : recordedLedger pj (before ++ after) =
      after.foldl (Ledger.step pj recorder) (recordedLedger pj before) :=
  List.foldl_append ..

/-- The queues are those of the ledger. -/
theorem recorded_refines (ops : List Op) :
    Refines (recorded pj ops) (recordedLedger pj ops) := run_refines_ledger _ _

/-- So is what was handed over, -/
theorem executed_eq (ops : List Op) : executed pj ops = (recordedLedger pj ops).world.executed :=
  congrArg Log.executed (recorded_refines pj ops).world

/-- and what was freed. -/
theorem discarded_eq (ops : List Op) : discarded pj ops = (recordedLedger pj ops).world.discarded :=
  congrArg Log.discarded (recorded_refines pj ops).world

/-- **Every ledger is ordered.** -/
theorem recordedLedger_ordered (ops : List Op) : Ordered (recordedLedger pj ops) := by
  induction ops using List.reverseRecOn with
  | nil =>
    exact ⟨fun _ h => absurd h List.not_mem_nil, fun _ h => absurd h List.not_mem_nil,
      fun _ h => absurd h List.not_mem_nil, List.Pairwise.nil, fun _ => List.Pairwise.nil,
      fun _ h => absurd h List.not_mem_nil⟩
  | append_singleton ops op ih =>
    rw [recordedLedger_append]
    exact ih.move (step_move pj _ op)

/-- Calls are counted. -/
theorem recordedLedger_calls (ops : List Op) : (recordedLedger pj ops).calls = ops.length := by
  induction ops using List.reverseRecOn with
  | nil => rfl
  | append_singleton ops op ih =>
    rw [recordedLedger_append, List.length_append, ← ih]
    rfl

end

/-! ## The command of one call -/

/-- The command of a call, in two lists. -/
theorem ofCall_append (n : ℕ) (commands commands' : List (Tagged Command)) :
    ofCall n (commands ++ commands') = ofCall n commands ++ ofCall n commands' :=
  List.filter_append ..

/-- Sorting leaves the command of a call. -/
theorem ofCall_byKind (n : ℕ) (order : List Kind) (commands : List (Tagged Command)) :
    ofCall n (byKind order commands) = byKind order (ofCall n commands) := filter_byKind _ _ _

/-- A call still to come has no command. -/
theorem ofCall_eq_nil {commands : List (Tagged Command)}
    (h : ∀ t ∈ commands, t.call < n) : ofCall n commands = [] := by
  apply List.filter_eq_nil_iff.mpr
  intro t ht hcall
  exact Nat.ne_of_lt (h t ht) (of_decide_eq_true hcall)

/-- Nor has another call. -/
theorem ofCall_singleton_of_ne (h : t.call ≠ n) : ofCall n [t] = [] := by
  simp [ofCall, h]

/-- The command of call `n` is no longer pending. -/
structure Settled (n : ℕ) (l : Ledger Log) : Prop where
  past : n < l.calls
  gone : ofCall n l.pending = []

/-- What left the queues never comes back. -/
theorem Settled.move {l' : Ledger Log} (h : Settled n l) (hmove : Move l l') :
    Settled n l' ∧ ofCall n l'.world.executed = ofCall n l.world.executed ∧
      ofCall n l'.world.discarded = ofCall n l.world.discarded := by
  have hpast : n < l.calls + 1 := Nat.lt_succ_of_lt h.past
  cases hmove with
  | idle => exact ⟨⟨hpast, h.gone⟩, rfl, rfl⟩
  | accept =>
    refine ⟨⟨hpast, ?_⟩, rfl, rfl⟩
    rw [ofCall_append, h.gone, ofCall_singleton_of_ne (Nat.ne_of_gt h.past), List.append_nil]
  | handOver =>
    refine ⟨⟨hpast, rfl⟩, ?_, rfl⟩
    rw [ofCall_append, ofCall_byKind, h.gone, byKind_nil, List.append_nil]
  | free =>
    refine ⟨⟨hpast, rfl⟩, rfl, ?_⟩
    rw [ofCall_append, ofCall_byKind, h.gone, byKind_nil, List.append_nil]

/-- Nor does any later call bring it back. -/
theorem Settled.steps (h : Settled n l) (pj : Pjsip) (ops : List Op) :
    ofCall n (ops.foldl (Ledger.step pj recorder) l).world.executed = ofCall n l.world.executed ∧
      ofCall n (ops.foldl (Ledger.step pj recorder) l).world.discarded =
        ofCall n l.world.discarded := by
  induction ops generalizing l with
  | nil => exact ⟨rfl, rfl⟩
  | cons op rest ih =>
    obtain ⟨hnext, hexecuted, hdiscarded⟩ := h.move (step_move pj l op)
    rw [← hexecuted, ← hdiscarded]
    exact ih hnext

/-- The command of call `n` is pending in a runtime that is started. -/
structure Pending (t : Tagged Command) (l : Ledger Log) : Prop where
  started : l.started = true
  past : t.call < l.calls
  waits : ofCall t.call l.pending = [t]
  notExecuted : ofCall t.call l.world.executed = []
  notDiscarded : ofCall t.call l.world.discarded = []

/-- Until a poll or a stop a pending command stays where it is. -/
theorem Pending.step {op : Op} (h : Pending t l)
    (hop : op ≠ .poll ∧ op ≠ .stop) : Pending t (l.step pj recorder op) := by
  have hpast : t.call < l.calls + 1 := Nat.lt_succ_of_lt h.past
  rcases step_of_waits pj h.started hop with hidle | ⟨command, haccept⟩
  · rw [hidle]
    exact ⟨h.started, hpast, h.waits, h.notExecuted, h.notDiscarded⟩
  · rw [haccept]
    refine ⟨h.started, hpast, ?_, h.notExecuted, h.notDiscarded⟩
    rw [ofCall_append, h.waits, ofCall_singleton_of_ne (Nat.ne_of_gt h.past), List.append_nil]

/-- So it does throughout such calls. -/
theorem Pending.steps {ops : List Op} (h : Pending t l)
    (hops : Waits ops) : Pending t (ops.foldl (Ledger.step pj recorder) l) := by
  induction ops generalizing l with
  | nil => exact h
  | cons op rest ih =>
    exact ih (h.step (hops op List.mem_cons_self))
      fun other hmem => hops other (List.mem_cons_of_mem _ hmem)

/-- A poll hands a pending command over. -/
theorem Pending.poll (h : Pending t l) (pj : Pjsip) : Settled t.call (l.step pj recorder .poll) ∧
      ofCall t.call (l.step pj recorder .poll).world.executed = [t] ∧
      ofCall t.call (l.step pj recorder .poll).world.discarded = [] := by
  simp only [Ledger.step, Ledger.poll, h.started, foldl_handle, Bool.not_true, Bool.false_eq_true,
    if_false]
  refine ⟨⟨Nat.lt_succ_of_lt h.past, rfl⟩, ?_, h.notDiscarded⟩
  rw [ofCall_append, ofCall_byKind, h.waits, h.notExecuted, byKind_pollOrder_singleton, List.nil_append]

/-- A stop frees a pending command. -/
theorem Pending.stop (h : Pending t l) (pj : Pjsip) : Settled t.call (l.step pj recorder .stop) ∧
      ofCall t.call (l.step pj recorder .stop).world.discarded = [t] ∧
      ofCall t.call (l.step pj recorder .stop).world.executed = [] := by
  simp only [Ledger.step, Ledger.stop, h.started, Bool.not_true, Bool.false_eq_true, if_false]
  refine ⟨⟨Nat.lt_succ_of_lt h.past, rfl⟩, ?_, h.notExecuted⟩
  simp only [Ledger.release, recorder]
  rw [ofCall_append, ofCall_byKind, h.waits, h.notDiscarded, byKind_releaseOrder_singleton,
    List.nil_append]

/-- An accepted submission makes its command pending, with the number of the call. -/
theorem pending_of_accepted {command : Command}
    (h : call.command pj alloc (recordedLedger pj before).started = .ok command) :
    Pending ⟨before.length, command⟩ (recordedLedger pj (before ++ [.submit alloc call])) := by
  have hordered := recordedLedger_ordered pj before
  have hcalls := recordedLedger_calls pj before
  have hstarted := Submission.started_of_command h
  rw [recordedLedger_append]
  simp only [List.foldl_cons, List.foldl_nil, Ledger.step, Ledger.submit, h]
  refine ⟨hstarted, hcalls ▸ Nat.lt_succ_self _, ?_, ?_, ?_⟩
  · rw [ofCall_append, ofCall_eq_nil fun t ht => hcalls ▸ hordered.pending t ht, hcalls]
    simp [ofCall]
  · exact ofCall_eq_nil fun t ht => hcalls ▸ hordered.executed t ht
  · exact ofCall_eq_nil fun t ht => hcalls ▸ hordered.discarded t ht

/-- An accepted command that waits until the next poll or stop. -/
theorem pending_of_waits {between : List Op} {command : Command}
    (h : call.command pj alloc (recordedLedger pj before).started = .ok command)
    (hwaits : Waits between) :
    Pending ⟨before.length, command⟩ (recordedLedger pj (before ++ .submit alloc call :: between)) := by
  rw [← List.singleton_append, ← List.append_assoc, recordedLedger_append]
  exact (pending_of_accepted h).steps hwaits

/-! ## The result -/

section
variable {pj : Pjsip} {t : Tagged Command} {done : List Op}

/-- The first poll hands it over, once. -/
theorem handedOver_of_pending (h : Pending t (recordedLedger pj done)) (rest : List Op) :
    HandedOver pj t done (done ++ .poll :: rest) := by
  obtain ⟨hsettled, hexecuted, hdiscarded⟩ := h.poll pj
  obtain ⟨hrun, hrun'⟩ := hsettled.steps pj rest
  refine ⟨?_, ?_, ?_, ?_⟩
  · rw [executed_eq]
    exact h.notExecuted
  · rw [executed_eq, recordedLedger_append]
    exact hexecuted
  · rw [executed_eq, recordedLedger_append]
    exact hrun.trans hexecuted
  · rw [discarded_eq, recordedLedger_append]
    exact hrun'.trans hdiscarded

/-- A stop before that frees it, once. -/
theorem freed_of_pending (h : Pending t (recordedLedger pj done)) (rest : List Op) :
    Freed pj t done (done ++ .stop :: rest) := by
  obtain ⟨hsettled, hdiscarded, hexecuted⟩ := h.stop pj
  obtain ⟨hrun, hrun'⟩ := hsettled.steps pj rest
  refine ⟨?_, ?_, ?_, ?_⟩
  · rw [discarded_eq]
    exact h.notDiscarded
  · rw [discarded_eq, recordedLedger_append]
    exact hdiscarded
  · rw [discarded_eq, recordedLedger_append]
    exact hrun'.trans hdiscarded
  · rw [executed_eq, recordedLedger_append]
    exact hrun.trans hexecuted

end

/-- A submission that fails leaves the runtime as it was, but for the count of calls. -/
theorem submit_of_error {refusal : Refusal} (h : returned pj before alloc call = .error refusal) :
    (recorded pj (before ++ [.submit alloc call])).queues = (recorded pj before).queues := by
  have hstep : recorded pj (before ++ [.submit alloc call]) =
      step pj recorder (recorded pj before) (.submit alloc call) := List.foldl_append ..
  rw [hstep]
  unfold returned Sys.submit at h
  cases hcommand : call.command pj alloc (recorded pj before).started with
  | error refusal => simp only [step, Sys.submit, hcommand]
  | ok command =>
    rw [hcommand] at h
    cases h

/-- A submission that succeeds has a command. -/
theorem command_of_returned (h : returned pj before alloc call = .ok ()) :
    ∃ command, call.command pj alloc (recordedLedger pj before).started = .ok command := by
  unfold returned Sys.submit at h
  rw [(recorded_refines pj before).started] at h
  cases hcommand : call.command pj alloc (recordedLedger pj before).started with
  | error refusal =>
    rw [hcommand] at h
    cases h
  | ok command => exact ⟨command, rfl⟩

/-- **Every accepted command runs exactly once.** In every list of calls the commands of a kind are
handed over in the order they were submitted. A submission that fails leaves all queues unchanged.
The command of one that succeeds carries the field values given; the first poll after it hands it
over, once and for all, unless a stop comes first: then it is freed and never handed over. -/
theorem accepted_commands_run_once (pj : Pjsip) (ops : List Op) :
    (∀ kind, (ofKind kind (executed pj ops)).Pairwise fun t t' => t.call < t'.call) ∧
    ∀ before alloc call after, ops = before ++ .submit alloc call :: after →
      (∀ refusal, returned pj before alloc call = .error refusal →
        (recorded pj (before ++ [.submit alloc call])).queues = (recorded pj before).queues) ∧
      (returned pj before alloc call = .ok () → ∃ command, call.asGiven = some command ∧
        (∀ between rest, after = between ++ .poll :: rest → Waits between →
          HandedOver pj ⟨before.length, command⟩ (before ++ .submit alloc call :: between) ops) ∧
        ∀ between rest, after = between ++ .stop :: rest → Waits between →
          Freed pj ⟨before.length, command⟩ (before ++ .submit alloc call :: between) ops) := by
  refine ⟨fun kind => executed_eq pj ops ▸ (recordedLedger_ordered pj ops).fifo kind, ?_⟩
  rintro before alloc call after rfl
  refine ⟨fun refusal hrefused => submit_of_error hrefused, fun hok => ?_⟩
  obtain ⟨command, hcommand⟩ := command_of_returned hok
  refine ⟨command, call.command_asGiven hcommand, ?_, ?_⟩
  · rintro between rest rfl hwaits
    have hhanded := handedOver_of_pending (pending_of_waits hcommand hwaits) rest
    rwa [List.append_assoc, List.cons_append] at hhanded
  · rintro between rest rfl hwaits
    have hfreed := freed_of_pending (pending_of_waits hcommand hwaits) rest
    rwa [List.append_assoc, List.cons_append] at hfreed

/-- A close and a send completion are submitted and run by the poll; a second close is freed by the
stop. -/
def sampleCalls : List Op :=
  [.start .success, .submit ⟨true, true⟩ (.closeTransport 7 .tcp .success),
    .submit ⟨true, true⟩ (.completeSend ⟨24, 13, 5, 100⟩), .poll,
    .submit ⟨true, true⟩ (.closeTransport 8 .tcp .etoomany), .stop, .poll]

/-- Two closes: one is polled, one is stopped. -/
theorem accepted_commands_run_once_sample :
    HandedOver samplePjsip ⟨1, .close ⟨7, .tcp, .eshutdown⟩⟩ (sampleCalls.take 3) sampleCalls ∧
      Freed samplePjsip ⟨4, .close ⟨8, .tcp, .etoomany⟩⟩ (sampleCalls.take 5) sampleCalls := by
  obtain ⟨-, hcalls⟩ := accepted_commands_run_once samplePjsip sampleCalls
  constructor
  · obtain ⟨-, haccepted⟩ := hcalls (sampleCalls.take 1) _ _ _ rfl
    obtain ⟨command, hgiven, hpoll, -⟩ := haccepted rfl
    obtain rfl := Option.some.inj hgiven
    exact hpoll [_] _ rfl (by simp [Waits])
  · obtain ⟨-, haccepted⟩ := hcalls (sampleCalls.take 4) _ _ _ rfl
    obtain ⟨command, hgiven, -, hstop⟩ := haccepted rfl
    obtain rfl := Option.some.inj hgiven
    exact hstop [] _ rfl (by simp [Waits])

end GmvPjsip.Commands
