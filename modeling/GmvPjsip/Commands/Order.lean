import GmvPjsip.Commands.Once
import Mathlib.Data.List.Flatten

/-!
# The order of commands on one object

A poll runs the queues kind by kind, so two commands may be run in the other order than the
application submitted them, also when they name the same call or the same TCP association.

* `Command.objects` says which calls and associations a command names.
* `submission_order_kept_iff`: two commands submitted between two polls are run in the order of
  their submission exactly when the kind of the second does not come before the kind of the first
  in `pollOrder`.
* `submission_order_lost`: a final response to an INVITE and then a BYE on its call are run the other
  way round, and so are a MESSAGE over a TCP association and then a close of it.
-/

namespace GmvPjsip.Commands

open GmvPjsip.Auth

/-! ## Objects -/

/-- What two commands may have in common. -/
inductive Object
  | call (callId : Bytes)
  | association (associationId : ℕ)
  deriving DecidableEq, Repr

/-- The association of a command that goes over TCP. -/
def onAssociation (transport : SipTransport) (associationId : ℕ) : List Object :=
  if transport = .tcp then [.association associationId] else []

/-- The calls and TCP associations that a command of the application names. A SUBSCRIBE that starts
a subscription has no Call-ID yet. -/
def Command.objects : Command → List Object
  | .auth _ => []
  | .receive _ => []
  | .completion _ => []
  | .close c => onAssociation c.transport c.associationId
  | .message c => onAssociation c.transport c.associationId
  | .invite c => .call c.callId :: onAssociation c.transport c.associationId
  | .dialog c => .call c.callId :: onAssociation c.transport c.associationId
  | .inviteResponse c => [.call c.callId]
  | .subscribe c =>
    (if c.callId = [] then [] else [.call c.callId]) ++ onAssociation c.transport c.associationId

/-! ## Ranks -/

/-- The place of a kind in a poll. -/
def Kind.rank (kind : Kind) : ℕ := pollOrder.idxOf kind

theorem sublist_pollOrder {kind kind' : Kind} :
    kind.rank < kind'.rank → [kind, kind'].Sublist pollOrder := by
  cases kind <;> cases kind' <;> decide

theorem Kind.eq_of_rank {kind kind' : Kind} : kind.rank = kind'.rank → kind = kind' := by
  cases kind <;> cases kind' <;> decide

variable {commands : List (Tagged Command)} {t : Tagged Command} {pj : Pjsip}

theorem singleton_sublist_ofKind
    (h : t ∈ commands) : [t].Sublist (ofKind t.item.kind commands) := by
  apply List.singleton_sublist.mpr
  exact List.mem_filter.mpr ⟨h, decide_eq_true rfl⟩

/-- A kind that runs earlier is run before the other, however its commands came. -/
theorem sublist_byKind_of_lt {t' : Tagged Command} (h : t ∈ commands) (h' : t' ∈ commands)
    (hrank : t.item.kind.rank < t'.item.kind.rank) :
    [t, t'].Sublist (byKind pollOrder commands) := by
  have hpair : [t, t'].Sublist (byKind [t.item.kind, t'.item.kind] commands) := by
    simp only [byKind, List.flatMap_cons, List.flatMap_nil, List.append_nil]
    exact (singleton_sublist_ofKind h).append (singleton_sublist_ofKind h')
  exact hpair.trans ((sublist_pollOrder hrank).flatMap _)

/-- Commands of one kind keep their order. -/
theorem sublist_byKind_of_eq {t' : Tagged Command} (h : [t, t'].Sublist commands)
    (hkind : t.item.kind = t'.item.kind) :
    [t, t'].Sublist (byKind pollOrder commands) := by
  have hboth : ofKind t.item.kind [t, t'] = [t, t'] := by simp [ofKind, hkind]
  have hsub : [t, t'].Sublist (ofKind t.item.kind commands) := hboth ▸ h.filter _
  rw [← ofKind_byKind_pollOrder] at hsub
  exact hsub.trans List.filter_sublist

/-! ## Two pending commands -/

/-- Until a poll or a stop the pending commands only grow. -/
theorem pending_grows {l : Ledger Log} {ops : List Op} (hstarted : l.started = true)
    (hops : Waits ops) : l.pending.Sublist (ops.foldl (Ledger.step pj recorder) l).pending := by
  induction ops generalizing l with
  | nil => exact List.Sublist.refl _
  | cons op rest ih =>
    have hrest : Waits rest := fun other hmem => hops other (List.mem_cons_of_mem _ hmem)
    rw [List.foldl_cons]
    rcases step_of_waits pj hstarted (hops op List.mem_cons_self) with
      hidle | ⟨command, haccept⟩
    · rw [hidle]
      exact ih (l := { l with calls := l.calls + 1 }) hstarted hrest
    · rw [haccept]
      have hgrown := ih (l := { l with
        pending := l.pending ++ [⟨l.calls, command⟩], calls := l.calls + 1 }) hstarted hrest
      exact (List.sublist_append_left _ _).trans hgrown

/-- What was handed over stays in the log. -/
theorem executed_grows (pj : Pjsip) (l : Ledger Log) (ops : List Op) :
    l.world.executed.Sublist (ops.foldl (Ledger.step pj recorder) l).world.executed := by
  induction ops generalizing l with
  | nil => exact List.Sublist.refl _
  | cons op rest ih =>
    have hmove := step_move pj l op
    refine List.Sublist.trans ?_ (ih (l.step pj recorder op))
    generalize l.step pj recorder op = l' at hmove
    cases hmove with
    | idle => exact List.Sublist.refl _
    | accept => exact List.Sublist.refl _
    | handOver => exact List.sublist_append_left _ _
    | free => exact List.Sublist.refl _

/-- No command is handed over twice. -/
theorem executed_nodup (pj : Pjsip) (ops : List Op) : (executed pj ops).Nodup := by
  apply List.nodup_iff_sublist.mpr
  intro t htwice
  have hkind : ofKind t.item.kind [t, t] = [t, t] := by simp [ofKind]
  have hsub : [t, t].Sublist (ofKind t.item.kind (executed pj ops)) := hkind ▸ htwice.filter _
  have hfifo := (recordedLedger_ordered pj ops).fifo t.item.kind
  rw [← executed_eq] at hfifo
  exact Nat.lt_irrefl _ (List.rel_of_pairwise_cons (hfifo.sublist hsub) List.mem_cons_self)

/-- Two commands cannot be handed over in both orders. -/
theorem not_sublist_swap {α : Type} {l : List α} {a b : α} (hnodup : l.Nodup)
    (h : [a, b].Sublist l) : ¬[b, a].Sublist l := by
  intro h'
  induction l with
  | nil => cases h
  | cons x rest ih =>
    obtain ⟨hx, hrest⟩ := List.nodup_cons.mp hnodup
    cases h with
    | cons _ h =>
      cases h' with
      | cons _ h' => exact ih hrest h h'
      | cons_cons => exact hx (h.subset (List.mem_cons_of_mem _ List.mem_cons_self))
    | cons_cons _ h =>
      cases h' with
      | cons _ h' => exact hx (h'.subset (List.mem_cons_of_mem _ List.mem_cons_self))
      | cons_cons => exact hx (h.subset List.mem_cons_self)

/-- Both commands are pending, in the order they were submitted. -/
theorem sublist_pending {done after : List Op} {alloc : Alloc} {call : Submission}
    {command : Command} (h : Pending t (recordedLedger pj done))
    (hcommand : call.command pj alloc (recordedLedger pj done).started = .ok command)
    (hafter : Waits after) :
    [t, ⟨done.length, command⟩].Sublist
      (recordedLedger pj (done ++ .submit alloc call :: after)).pending := by
  have hmem : t ∈ (recordedLedger pj done).pending := by
    have hwaits : t ∈ ofCall t.call (recordedLedger pj done).pending := by
      rw [h.waits]
      exact List.mem_cons_self
    exact List.mem_of_mem_filter hwaits
  have hstep : (recordedLedger pj done).step pj recorder (.submit alloc call) =
      { recordedLedger pj done with
        pending := (recordedLedger pj done).pending ++ [⟨(recordedLedger pj done).calls, command⟩]
        calls := (recordedLedger pj done).calls + 1 } := by
    simp [Ledger.step, Ledger.submit, hcommand]
  rw [recordedLedger_append, List.foldl_cons, hstep, recordedLedger_calls]
  refine List.Sublist.trans ?_ (pending_grows h.started hafter)
  exact (List.singleton_sublist.mpr hmem).append (List.Sublist.refl [_])

/-- A poll of a started runtime logs the pending commands. -/
theorem poll_executed {l : Ledger Log} (hstarted : l.started = true) :
    (l.step pj recorder .poll).world.executed = l.world.executed ++ byKind pollOrder l.pending := by
  simp [Ledger.step, Ledger.poll, hstarted, foldl_handle]

/-- **When submission order survives.** Two commands are accepted between two polls. They are run in
the order of their submission exactly when the poll does not run the kind of the second before the
kind of the first. -/
theorem submission_order_kept_iff (pj : Pjsip) (before between after rest : List Op)
    (alloc alloc' : Alloc) (call call' : Submission) (hbetween : Waits between)
    (hafter : Waits after) (hcall : returned pj before alloc call = .ok ())
    (hcall' : returned pj (before ++ .submit alloc call :: between) alloc' call' = .ok ()) :
    ∃ command command', call.asGiven = some command ∧ call'.asGiven = some command' ∧
      ([⟨before.length, command⟩, ⟨(before ++ .submit alloc call :: between).length, command'⟩].Sublist
        (executed pj (before ++ .submit alloc call :: between ++ .submit alloc' call' :: after ++
          .poll :: rest)) ↔ command.kind.rank ≤ command'.kind.rank) := by
  obtain ⟨command, hcommand⟩ := command_of_returned hcall
  obtain ⟨command', hcommand'⟩ := command_of_returned hcall'
  refine ⟨command, command', call.command_asGiven hcommand, call'.command_asGiven hcommand', ?_⟩
  have hpending := pending_of_waits hcommand hbetween
  have hpair := sublist_pending hpending hcommand' hafter
  have hstarted := (pending_of_waits hcommand' hafter).started
  generalize hdone : before ++ .submit alloc call :: between ++ .submit alloc' call' :: after = done
    at hpair hstarted ⊢
  have hlog : (byKind pollOrder (recordedLedger pj done).pending).Sublist
      (executed pj (done ++ .poll :: rest)) := by
    rw [executed_eq, recordedLedger_append, List.foldl_cons]
    refine List.Sublist.trans ?_ (executed_grows pj _ rest)
    rw [poll_executed hstarted]
    exact List.sublist_append_right _ _
  constructor
  · intro hkept
    by_contra hrank
    exact not_sublist_swap (executed_nodup _ _) hkept
      ((sublist_byKind_of_lt (hpair.subset (List.mem_cons_of_mem _ List.mem_cons_self))
        (hpair.subset List.mem_cons_self) (Nat.lt_of_not_le hrank)).trans hlog)
  · intro hrank
    rcases Nat.lt_or_eq_of_le hrank with hlt | heq
    · exact (sublist_byKind_of_lt (hpair.subset List.mem_cons_self)
        (hpair.subset (List.mem_cons_of_mem _ List.mem_cons_self)) hlt).trans hlog
    · exact (sublist_byKind_of_eq hpair (Kind.eq_of_rank heq)).trans hlog

/-! ## Samples -/

/-- A busy response to the INVITE with Call-ID `c`. -/
def sampleResponse : Submission :=
  .respondInvite ⟨80, 13, 486, .bytes [99], .bytes [], .bytes [], .bytes []⟩

/-- A BYE on the call `c`. -/
def sampleBye : Submission :=
  .sendDialogRequest ⟨72, 13, 1, .bye, .bytes [99], .bytes [], .bytes []⟩

/-- A MESSAGE over association 7. -/
def sampleMessage : Submission :=
  .sendMessage ⟨112, 13, 2, 7, .tcp, 1, .bytes [116], .bytes [116], .bytes [102], .bytes [120],
    .bytes []⟩

/-- Close association 7. -/
def sampleClose : Submission := .closeTransport 7 .tcp .success

/-- Submit two commands and poll. -/
def twoCalls (call call' : Submission) : List Op :=
  [.start .success, .submit ⟨true, true⟩ call, .submit ⟨true, true⟩ call', .poll]

theorem submission_order_kept_sample : [⟨1, .message ⟨2, 7, .tcp, 1, [116], [116], [102], [120], []⟩⟩,
        ⟨2, .inviteResponse ⟨486, [99], [], [], []⟩⟩].Sublist
      (executed samplePjsip (twoCalls sampleMessage sampleResponse)) := by
  obtain ⟨command, command', hgiven, hgiven', hiff⟩ := submission_order_kept_iff samplePjsip
    [.start .success] [] [] [] ⟨true, true⟩ ⟨true, true⟩ sampleMessage sampleResponse
    (by simp [Waits]) (by simp [Waits]) rfl rfl
  obtain rfl := Option.some.inj hgiven
  obtain rfl := Option.some.inj hgiven'
  exact hiff.mpr (by decide)

/-- The BYE is run before the response, and the close before the MESSAGE, though each names the
object of the other. -/
theorem submission_order_lost :
    (∃ bye response, executed samplePjsip (twoCalls sampleResponse sampleBye) =
        [⟨2, bye⟩, ⟨1, response⟩] ∧
      sampleBye.asGiven = some bye ∧ sampleResponse.asGiven = some response ∧
      .call [99] ∈ bye.objects ∧ .call [99] ∈ response.objects) ∧
    ∃ close message, executed samplePjsip (twoCalls sampleMessage sampleClose) =
        [⟨2, close⟩, ⟨1, message⟩] ∧
      sampleClose.asGiven = some close ∧ sampleMessage.asGiven = some message ∧
      .association 7 ∈ close.objects ∧ .association 7 ∈ message.objects :=
  ⟨⟨_, _, rfl, rfl, rfl, by decide, by decide⟩, ⟨_, _, rfl, rfl, rfl, by decide, by decide⟩⟩

end GmvPjsip.Commands
