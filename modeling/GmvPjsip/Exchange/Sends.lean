import GmvPjsip.Io.Streams
import GmvPjsip.Transport.Completions

/-!
# The worker and the socket layer

A message of PJSIP goes from the shim to the socket layer and its completion comes back. The worker
runs PJSIP and the shim: a send is numbered, put into the list of pending sends and, through
`send_callback`, into the transmit queue. The tasks of the socket layer do with it what they do, and
report what became of it. The worker drains the reports into a queue of the shim, and the shim calls
PJSIP back.

* `Sides` is both sides with everything between them, and `runExchange` what any interleaving makes
  of it.
* `Linked` ties the two sides together, and `runExchange_linked` says that every run keeps it.
-/

namespace GmvPjsip.Exchange

open GmvPjsip.Auth
open GmvPjsip.Commands
open GmvPjsip.Framer
open GmvPjsip.Io
open GmvPjsip.Lib
open GmvPjsip.Transport (Sends SendOp SendRecord PendingSend Sent Moves processSendCompletion
  processSendCompletions customTransportSend)

/-! ## The code -/

/-- What a call of `gmv_custom_transport_send` hands to `send_callback`: the association and the
protocol of the transport, and the encoded message. -/
structure Packet where
  associationId : ℕ
  protocol : SipTransportProtocol
  data : Bytes
  deriving DecidableEq, Repr

/-- Source: `runtime.rs`, `runtime_send_callback` -/
def Packet.transmit (packet : Packet) (sendId : ℕ) : SipTransmit where
  sendId := sendId
  associationId := packet.associationId
  protocol := packet.protocol
  data := packet.data

/-- The message that a call put into the transmit queue: the call returned `PJ_EPENDING` only if
`send_callback` had returned 0. -/
def transmitOf (packet : ℕ → Packet) (record : SendRecord) (n : ℕ) : Option SipTransmit :=
  if record.status = .epending then record.sendId.map (packet n).transmit else none

/-- The messages that the calls so far put into the transmit queue. -/
def transmitsOf (packet : ℕ → Packet) (s : Sends) : List SipTransmit :=
  s.returned.zipIdx.filterMap fun (record, n) => transmitOf packet record n

/-- Both sides. `completions` is the queue of completions in the shim. `handled` and `refused` are
written and never read: the completions that the shim has handled, and those that the worker could
not submit. -/
structure Sides where
  history : History
  sends : Sends
  completions : List SendCompletionCommand
  stopped : Bool
  handled : List SendCompletionCommand
  refused : List (ℕ × Except Int ℕ)

/-- What happens next. -/
inductive Act
  /-- A task of the socket layer has its turn. -/
  | task (turn : Turn)
  /-- PJSIP sends, or a transport is opened or closed, or the runtime is stopped. -/
  | owner (op : SendOp)
  /-- The worker takes a command out of the channel. -/
  | drain (alloc : Alloc)
  /-- The shim handles its queue of completions. -/
  | complete

def Sides.init (capacity : ℕ) (udp sendCallback : Bool) : Sides where
  history := .init capacity udp
  sends := .init sendCallback
  completions := []
  stopped := false
  handled := []
  refused := []

/-- The completion that is queued for a command, if it is one and the submission succeeds.
Source: `runtime.rs`, `SipRuntime::complete_send` -/
def submitCompletion (alloc : Alloc) (command : RuntimeIoCommand) : Option SendCompletionCommand :=
  match command.submission false with
  | some (.completeSend completion) => (Commands.completeSend alloc true completion).toOption
  | _ => none

section
variable (ar : Arith) (packet : ℕ → Packet)

/-- The tasks have some turns. -/
def Sides.run (e : Sides) (turns : List Turn) : Sides :=
  { e with history := turns.foldl (History.step ar) e.history }

/-- The worker goes on, and the messages that it sends on the way are put into the transmit queue.
-/
def Sides.goOn (e : Sides) (sends : Sends) : Sides :=
  let new := (transmitsOf packet sends).drop (transmitsOf packet e.sends).length
  { e.run ar (new.map .transmit) with sends := sends }

/-- One pass of the draining loop.
Source: `runtime.rs`, `SipRuntime::drain_io_commands` -/
def Sides.drain (e : Sides) (alloc : Alloc) : Sides :=
  match e.stopped, e.history.tasks.channel with
  | false, command :: _ =>
    match submitCompletion alloc command with
    | some completion => { e.run ar [.consume] with completions := e.completions ++ [completion] }
    | none => { e.run ar [.consume] with refused := e.refused ++ command.completion.toList }
  | _, _ => e

/-- Source: `shim.c`, `gmv_process_io_commands` -/
def Sides.complete (e : Sides) : Sides :=
  { e.goOn ar packet (processSendCompletions e.sends e.completions) with
    completions := []
    handled := e.handled ++ e.completions }

/-- One thing that happens. Only the worker puts messages into the transmit queue and takes commands
out of the channel, and completions reach the list of pending sends only through their queue. A stop
drops that queue. -/
def Sides.step (e : Sides) : Act → Option Sides
  | .task (.transmit _) => some e
  | .task .consume => some e
  | .task turn => some (e.run ar [turn])
  | .owner (.completions _) => some e
  | .owner .stop => (e.sends.step .stop).map fun sends =>
    { e.goOn ar packet sends with completions := [], stopped := true }
  | .owner op => (e.sends.step op).map (e.goOn ar packet)
  | .drain alloc => some (e.drain ar alloc)
  | .complete => some (e.complete ar packet)

/-- What a list of acts makes of a new runtime. -/
def runExchange (capacity : ℕ) (udp sendCallback : Bool) (acts : List Act) : Option Sides :=
  acts.foldlM (Sides.step ar packet) (.init capacity udp sendCallback)

end

/-! ## The messages of the sends -/

variable {s s' : Sends} {sendId : ℕ} {result : Except Int ℕ}

section
variable {packet : ℕ → Packet}

/-- What was handed to the sockets are the sends that were accepted. -/
theorem mem_transmitsOf {transmit : SipTransmit} :
    transmit ∈ transmitsOf packet s ↔ ∃ n sendId hasCallback,
      s.returned[n]? = some ⟨some sendId, .epending, hasCallback⟩ ∧
        transmit = (packet n).transmit sendId := by
  unfold transmitsOf
  rw [List.mem_filterMap]
  constructor
  · rintro ⟨⟨record, n⟩, hmem, htransmit⟩
    have hrecord := List.mem_zipIdx_iff_getElem?.mp hmem
    simp only [transmitOf] at htransmit
    split at htransmit
    · next hpending =>
      obtain ⟨sendId, hid, rfl⟩ := Option.map_eq_some_iff.mp htransmit
      obtain ⟨recordId, status, hasCallback⟩ := record
      subst hid hpending
      exact ⟨n, sendId, hasCallback, hrecord, rfl⟩
    · exact nomatch htransmit
  · rintro ⟨n, sendId, hasCallback, hrecord, rfl⟩
    have hmem : ((⟨some sendId, .epending, hasCallback⟩, n) : SendRecord × ℕ) ∈ s.returned.zipIdx :=
      List.mem_zipIdx_iff_getElem?.mpr hrecord
    exact ⟨_, hmem, rfl⟩

/-- The messages so far are kept. -/
theorem transmitsOf_mono (h : s.returned <+: s'.returned) :
    transmitsOf packet s <+: transmitsOf packet s' := by
  obtain ⟨new, hnew⟩ := h
  unfold transmitsOf
  rw [← hnew, List.zipIdx_append, List.filterMap_append]
  exact List.prefix_append _ _

end

/-! ## Ids -/

/-- Some send took this id. -/
def Known (s : Sends) (sendId : ℕ) : Prop := ∃ n, s.idOf n = some sendId

/-- An id stays what it is. -/
theorem idOf_mono (h : s.returned <+: s'.returned) {n : ℕ}
    (hid : s.idOf n = some sendId) : s'.idOf n = some sendId := by
  obtain ⟨record, hrecord, hsend⟩ := Option.bind_eq_some_iff.mp hid
  obtain ⟨new, hnew⟩ := h
  obtain ⟨hlt, -⟩ := List.getElem?_eq_some_iff.mp hrecord
  refine Option.bind_eq_some_iff.mpr ⟨record, ?_, hsend⟩
  rw [← hnew, List.getElem?_append_left hlt, hrecord]

/-- It stays known. -/
theorem Known.mono (hknown : Known s sendId)
    (h : s.returned <+: s'.returned) : Known s' sendId := hknown.imp fun _ => idOf_mono h

/-- Ids are not taken back. -/
theorem sendIds_length_mono (h : s.returned <+: s'.returned) :
    s.sendIds.length ≤ s'.sendIds.length := by
  obtain ⟨new, hnew⟩ := h
  rw [Sends.sendIds, Sends.sendIds, ← hnew, List.filterMap_append, List.length_append]
  exact Nat.le_add_right _ _

section

variable {sendCallback : Bool} {s s' : Sends} {handled commands : List SendCompletionCommand}

/-- What is pending was pending, or is a send of a later call. -/
theorem pending_fresh (h : Moves commands s s') :
    ∀ p ∈ s'.pendingSends, p ∈ s.pendingSends ∨ s.returned.length ≤ p.number := by
  have hboth : (∀ p ∈ s'.pendingSends, p ∈ s.pendingSends ∨ s.returned.length ≤ p.number) ∧
      s.returned.length ≤ s'.returned.length := by
    refine h.invariant (P := fun t => (∀ p ∈ t.pendingSends, p ∈ s.pendingSends ∨
      s.returned.length ≤ p.number) ∧ s.returned.length ≤ t.returned.length) ?_
      ⟨fun p => .inl, le_rfl⟩
    rintro t t' ⟨hfresh, hlength⟩ hmove
    refine ⟨?_, hlength.trans hmove.returned.length_le⟩
    cases hmove with
    | accepted =>
      intro p hp
      rcases List.mem_cons.mp hp with rfl | hp
      · exact .inr hlength
      · exact hfresh p hp
    | completed p rest sent hperm =>
      intro q hq
      exact hfresh q (hperm.mem_iff.mpr (List.mem_cons_of_mem _ hq))
    | _ => exact hfresh
  exact hboth.1

/-- Up to `2 ^ 64` sends have different ids. -/
theorem nodup_sendIds (h : Moves handled (.init sendCallback) s) (hfew : s.sendIds.length ≤ 2 ^ 64) :
    s.sendIds.Nodup :=
  (h.invariant Transport.Numbered.move (Transport.numbered_init sendCallback)).nodup hfew

/-- The books of the sends balance. -/
theorem balanced (h : Moves handled (.init sendCallback) s) : Transport.Balanced s :=
  h.invariant Transport.Balanced.move (Transport.balanced_init sendCallback)

/-- A callback that is told a byte count is told that of a completion for the id of its send. -/
theorem told_of_moves (h : Moves handled (.init sendCallback) s) :
    ∀ n sent, (n, .bytes sent) ∈ s.invoked →
      ∃ c ∈ handled, s.idOf n = some c.sendId ∧ c.sentBytes = sent := by
  induction h with
  | refl => exact fun _ _ hmem => absurd hmem List.not_mem_nil
  | @tail t t' hmoves hmove ih =>
    intro n sent hmem
    have hkept : (n, .bytes sent) ∈ t.invoked →
        ∃ c ∈ handled, t'.idOf n = some c.sendId ∧ c.sentBytes = sent := by
      intro hold
      obtain ⟨c, hc, hid, hsent⟩ := ih n sent hold
      exact ⟨c, hc, idOf_mono hmove.returned hid, hsent⟩
    cases hmove with
    | completed p rest told hperm hstated =>
      simp only [Sends.unlink] at hmem
      split at hmem
      · rcases List.mem_append.mp hmem with hold | hnew
        · exact hkept hold
        obtain ⟨rfl, rfl⟩ := Prod.mk.inj (List.mem_singleton.mp hnew)
        rcases hstated with ⟨status, hstatus⟩ | ⟨c, hc, hid, hsent⟩
        · exact Sent.noConfusion hstatus
        · have hpid := ((balanced hmoves).accepted_of_mem (hperm.mem_iff.mpr List.mem_cons_self)).2
          exact ⟨c, hc, hid ▸ hpid, (Sent.bytes.inj hsent).symm⟩
      · exact hkept hmem
    | _ => exact hkept hmem

/-- A send that a later call made has no id that was known before. -/
theorem settled_moves (hs : Moves handled (.init sendCallback) s) (hmoves : Moves commands s s')
    (hfew : s'.sendIds.length ≤ 2 ^ 64) (hknown : Known s sendId)
    (hsettled : ∀ p ∈ s.pendingSends, p.sendId ≠ sendId) :
    ∀ p ∈ s'.pendingSends, p.sendId ≠ sendId := by
  intro p hp
  rcases pending_fresh hmoves p hp with hold | hnew
  · exact hsettled p hold
  · rintro rfl
    obtain ⟨n, hn⟩ := hknown
    have hs' := (hs.mono (List.subset_append_left handled commands)).trans
      (hmoves.mono (List.subset_append_right handled commands))
    have heq : p.number = n := Transport.idOf_inj (nodup_sendIds hs' hfew)
      ((balanced hs').accepted_of_mem hp).2 (idOf_mono hmoves.returned hn)
    obtain ⟨record, hrecord, -⟩ := Option.bind_eq_some_iff.mp hn
    obtain ⟨hlt, -⟩ := List.getElem?_eq_some_iff.mp hrecord
    omega

/-- After a completion, no send with its id is pending. -/
theorem settled_completion (hs : Moves handled (.init sendCallback) s)
    {command : SendCompletionCommand} (hknown : Known s command.sendId)
    (hfew : (processSendCompletion s command).sendIds.length ≤ 2 ^ 64) :
    ∀ p ∈ (processSendCompletion s command).pendingSends, p.sendId ≠ command.sendId := by
  have hfew' := (sendIds_length_mono (Transport.processSendCompletion_moves s
    (List.mem_singleton_self command)).returned).trans hfew
  have hbalanced := balanced hs
  unfold processSendCompletion at hfew ⊢
  cases hfind : s.pendingSends.find? (fun p => p.sendId = command.sendId) with
  | none => exact fun p hp => by simpa using List.find?_eq_none.mp hfind p hp
  | some pending =>
    rw [hfind] at hfew
    have hpid : pending.sendId = command.sendId := by simpa using List.find?_some hfind
    have hperm := Transport.find_eraseP_perm hfind
    have hunlink : Transport.Move [command] s (s.unlink pending _ (.bytes command.sentBytes)) :=
      .completed pending _ _ hperm (.inr ⟨command, List.mem_singleton_self _, hpid, rfl⟩)
    refine settled_moves ((hs.mono (List.subset_append_left handled [command])).trans
      (Moves.mono (.single hunlink) (List.subset_append_right handled [command])))
      (s.complete_spec [] pending _ _).1 hfew hknown ?_
    intro p hp heq
    have hin : p ∈ s.pendingSends := hperm.mem_iff.mpr (List.mem_cons_of_mem _ hp)
    have hnumber : p.number = pending.number := Transport.idOf_inj (nodup_sendIds hs hfew')
      (hbalanced.accepted_of_mem hin).2
      (by rw [heq, ← hpid]; exact (hbalanced.accepted_of_mem (hperm.mem_iff.mpr List.mem_cons_self)).2)
    -- Then the list had two entries of one call.
    have hbalance := hbalanced.balance pending.number
    have hcount := (hperm.map PendingSend.number).count_eq pending.number
    rw [List.map_cons, List.count_cons_self] at hcount
    have hlisted := List.mem_map_of_mem (f := PendingSend.number) hp
    rw [hnumber] at hlisted
    have hpos := List.count_pos_iff.mpr hlisted
    simp only [Sends.unlink] at hpos
    split at hbalance <;> omega

/-- A completed send is pending no longer. -/
theorem settled_completions (hs : Moves handled (.init sendCallback) s)
    (hknown : ∀ c ∈ commands, Known s c.sendId)
    (hfew : (processSendCompletions s commands).sendIds.length ≤ 2 ^ 64) :
    ∀ c ∈ commands, ∀ p ∈ (processSendCompletions s commands).pendingSends, p.sendId ≠ c.sendId := by
  induction commands generalizing s handled with
  | nil => exact List.forall_mem_nil _
  | cons command rest ih =>
    have hmove := Transport.processSendCompletion_moves s (List.mem_singleton_self command)
    have hs' := (hs.mono (List.subset_append_left handled [command])).trans
      (hmove.mono (List.subset_append_right handled [command]))
    have hmoves := Transport.processSendCompletions_moves rest (processSendCompletion s command)
    have hknown' := fun c hc => (hknown c hc).mono hmove.returned
    refine List.forall_mem_cons.mpr ⟨?_, ih hs' (fun c hc => hknown' c (.tail _ hc)) hfew⟩
    refine settled_moves hs' hmoves hfew (hknown' command List.mem_cons_self) ?_
    exact settled_completion hs (hknown command List.mem_cons_self)
      ((sendIds_length_mono hmoves.returned).trans hfew)

end

/-! ## The two sides together -/

section
variable (ar : Arith) (packet : ℕ → Packet) (sendCallback : Bool)

/-- The transmit queue got the messages of the sends that returned `PJ_EPENDING`; the shim got the
completions that were drained; and what the shim has handled, PJSIP was told and waits for no more.
-/
structure Linked (e : Sides) : Prop where
  faithful : Faithful ar e.history
  moves : Moves e.handled (.init sendCallback) e.sends
  queued : e.history.queued = transmitsOf packet e.sends
  submitted : ∀ c ∈ e.handled ++ e.completions, ∃ result,
    .completeSend c.sendId result ∈ e.history.received ∧ sentBytes result = some c.sentBytes
  received : e.stopped = false → ∀ sendId result, .completeSend sendId result ∈ e.history.received →
      (sendId, result) ∈ e.refused ∨ ∃ c ∈ e.handled ++ e.completions, c.sendId = sendId
  settled : e.sends.sendIds.length ≤ 2 ^ 64 →
    ∀ c ∈ e.handled, ∀ p ∈ e.sends.pendingSends, p.sendId ≠ c.sendId

/-- Both sides start empty. -/
theorem linked_init (capacity : ℕ) (udp : Bool) :
    Linked ar packet sendCallback (.init capacity udp sendCallback) where
  faithful := faithful_init ar capacity udp
  moves := .refl
  queued := rfl
  submitted _ h := absurd h List.not_mem_nil
  received _ _ _ h := absurd h List.not_mem_nil
  settled _ := List.forall_mem_nil _

variable {ar packet sendCallback} {e e' : Sides}

/-- A command that the worker received completes a send: it reports what became of its message. -/
theorem Linked.outcome (h : Linked ar packet sendCallback e)
    (hmem : .completeSend sendId result ∈ e.history.received) :
    ∃ o ∈ e.history.outcomes, o.result = result ∧ ∃ n hasCallback,
      e.sends.returned[n]? = some ⟨some sendId, .epending, hasCallback⟩ ∧
        o.transmit = (packet n).transmit sendId := by
  have hput : .completeSend sendId result ∈ e.history.tasks.put := by
    rw [← h.faithful.received]
    exact List.mem_append_left _ hmem
  obtain ⟨a, ha, hcommand⟩ := List.mem_map.mp hput
  have hcompletion : (sendId, result) ∈ e.history.tasks.completions := by
    refine List.mem_filterMap.mpr ⟨a, List.mem_of_mem_filter ha, ?_⟩
    rw [hcommand]
    rfl
  rw [h.faithful.completions] at hcompletion
  obtain ⟨o, ho, heq⟩ := List.mem_filterMap.mp hcompletion
  obtain ⟨hid, hresult⟩ := Prod.mk.inj (Option.some.inj heq)
  refine ⟨o, ho, hresult, ?_⟩
  have hqueued : o.transmit ∈ transmitsOf packet e.sends := by
    rw [← h.queued, ← h.faithful.queued]
    exact List.mem_append_left _ (h.faithful.outcomes o ho).1
  obtain ⟨n, sendId', hasCallback, hrecord, htransmit⟩ := mem_transmitsOf.mp hqueued
  obtain rfl : sendId' = sendId := by
    rw [← hid, htransmit]
    rfl
  exact ⟨n, hasCallback, hrecord, htransmit⟩

/-- A completion is of a send that was accepted. -/
theorem Linked.known (h : Linked ar packet sendCallback e) {c : SendCompletionCommand}
    (hc : c ∈ e.handled ++ e.completions) : Known e.sends c.sendId := by
  obtain ⟨result, hmem, -⟩ := h.submitted c hc
  obtain ⟨o, -, -, n, hasCallback, hrecord, -⟩ := h.outcome hmem
  exact ⟨n, by rw [Sends.idOf, hrecord]; rfl⟩

/-- A task that neither puts messages into the transmit queue nor takes commands out of the channel
has its turn. -/
theorem Linked.task (h : Linked ar packet sendCallback e) {turn : Turn} (hqueued : turn.queued = none)
    (hreceives : e.history.tasks.receives turn = none) :
    Linked ar packet sendCallback (e.run ar [turn]) := by
  have hsame : (e.run ar [turn]).history.queued = e.history.queued ∧
      (e.run ar [turn]).history.received = e.history.received := by
    simp [Sides.run, History.step, hqueued, hreceives]
  refine ⟨h.faithful.step turn, h.moves, hsame.1.trans h.queued, ?_, ?_, h.settled⟩
  · rw [hsame.2]
    exact h.submitted
  · rw [hsame.2]
    exact h.received

/-- What the shim sends is queued for the sockets. -/
theorem foldl_transmit (ar : Arith) (h : History) (new : List SipTransmit) :
    ((new.map Turn.transmit).foldl (History.step ar) h).queued = h.queued ++ new ∧
      ((new.map Turn.transmit).foldl (History.step ar) h).received = h.received := by
  induction new generalizing h with
  | nil => exact ⟨(List.append_nil _).symm, rfl⟩
  | cons t new ih =>
    obtain ⟨hqueued, hreceived⟩ := ih (h.step ar (.transmit t))
    exact ⟨hqueued.trans (List.append_assoc ..), hreceived.trans (List.append_nil _)⟩

/-- The worker goes on, and handles some of the completions in the queue. -/
theorem Linked.goOn (h : Linked ar packet sendCallback e) {sends : Sends}
    {new completions handled : List SendCompletionCommand} {stopped : Bool}
    (hmoves : Moves new e.sends sends) (hhandled : handled = e.handled ++ new)
    (hsettled : sends.sendIds.length ≤ 2 ^ 64 →
      ∀ c ∈ new, ∀ p ∈ sends.pendingSends, p.sendId ≠ c.sendId)
    (hold : ∀ c ∈ new ++ completions, c ∈ e.completions)
    (hkept : stopped = false → e.stopped = false ∧ ∀ c ∈ e.completions, c ∈ new ++ completions) :
    Linked ar packet sendCallback { e.goOn ar packet sends with
      completions := completions, handled := handled, stopped := stopped } := by
  subst hhandled
  obtain ⟨hqueued, hsame⟩ := foldl_transmit ar e.history
    ((transmitsOf packet sends).drop (transmitsOf packet e.sends).length)
  refine ⟨h.faithful.steps _, (h.moves.mono (List.subset_append_left _ _)).trans
    (hmoves.mono (List.subset_append_right _ _)), ?_, ?_, ?_, fun hfew c hc => ?_⟩
  · rw [Sides.goOn, Sides.run, hqueued, h.queued]
    exact List.prefix_iff_eq_append.mp (transmitsOf_mono hmoves.returned)
  · intro c hc
    rw [Sides.goOn, Sides.run, hsame]
    rw [List.append_assoc] at hc
    exact h.submitted c (List.mem_append.mpr ((List.mem_append.mp hc).imp_right (hold c)))
  · intro hstopped sendId result hmem
    rw [Sides.goOn, Sides.run, hsame] at hmem
    obtain ⟨hrunning, hall⟩ := hkept hstopped
    rcases h.received hrunning sendId result hmem with hrefused | ⟨c, hc, hid⟩
    · exact .inl hrefused
    · refine .inr ⟨c, ?_, hid⟩
      rw [List.append_assoc]
      exact List.mem_append.mpr ((List.mem_append.mp hc).imp_right (hall c))
  · rcases List.mem_append.mp hc with hc | hc
    · have hfew' := (sendIds_length_mono hmoves.returned).trans hfew
      exact settled_moves h.moves hmoves hfew (h.known (List.mem_append_left _ hc))
        (h.settled hfew' c hc)
    · exact hsettled hfew c hc

/-- A completion carries the result of its send. -/
theorem submitCompletion_spec {alloc : Alloc} {command : RuntimeIoCommand}
    {completion : SendCompletionCommand} (h : submitCompletion alloc command = some completion) :
    ∃ result, command = .completeSend completion.sendId result ∧
      sentBytes result = some completion.sentBytes := by
  unfold submitCompletion at h
  split at h
  · next asked hsubmission =>
    cases command with
    | completeSend sendId result =>
      simp only [RuntimeIoCommand.submission, Io.completeSend] at hsubmission
      split at hsubmission
      · exact nomatch hsubmission
      · obtain ⟨bytes, hbytes, hasked⟩ := Option.map_eq_some_iff.mp hsubmission
        obtain rfl := Submission.completeSend.inj hasked
        cases hok : Commands.completeSend alloc true ⟨24, abiVersion, sendId, bytes⟩ with
        | error refusal =>
          rw [hok] at h
          exact nomatch h
        | ok command =>
          rw [hok] at h
          obtain rfl := Option.some.inj h
          obtain ⟨-, -, hok⟩ := (bind_eq_ok _ _ _).mp hok
          obtain ⟨-, -, hok⟩ := (bind_eq_ok _ _ _).mp hok
          obtain rfl := Except.ok.inj hok
          exact ⟨result, rfl, hbytes⟩
    | receive =>
      simp only [RuntimeIoCommand.submission, Io.receivePacket] at hsubmission
      split at hsubmission <;> exact nomatch hsubmission
    | transportClosed =>
      simp only [RuntimeIoCommand.submission, Io.closeTransport] at hsubmission
      split at hsubmission <;> exact nomatch hsubmission
  · exact nomatch h

/-- Draining keeps the sides linked. -/
theorem Linked.drain (h : Linked ar packet sendCallback e) (alloc : Alloc) :
    Linked ar packet sendCallback (e.drain ar alloc) := by
  unfold Sides.drain
  split
  · next command rest hstopped hchannel =>
    have hreceived : (e.run ar [.consume]).history.received = e.history.received ++ [command] := by
      simp [Sides.run, History.step, Tasks.receives, hchannel]
    have hqueued : (e.run ar [.consume]).history.queued = transmitsOf packet e.sends :=
      (List.append_nil _).trans h.queued
    have hfaithful := h.faithful.step .consume
    cases hsubmit : submitCompletion alloc command with
    | some completion =>
      obtain ⟨result, rfl, hsent⟩ := submitCompletion_spec hsubmit
      refine ⟨hfaithful, h.moves, hqueued, ?_, ?_, h.settled⟩
      · intro c hc
        simp only [hreceived, ← List.append_assoc] at hc ⊢
        rcases List.mem_append.mp hc with hc | hc
        · obtain ⟨result', hmem, hsent'⟩ := h.submitted c hc
          exact ⟨result', List.mem_append_left _ hmem, hsent'⟩
        · rw [List.mem_singleton.mp hc]
          exact ⟨result, List.mem_append_right _ (List.mem_singleton_self _), hsent⟩
      · intro _ sendId result' hmem
        simp only [hreceived, ← List.append_assoc] at hmem ⊢
        rcases List.mem_append.mp hmem with hmem | hmem
        · rcases h.received hstopped sendId result' hmem with hrefused | ⟨c, hc, hid⟩
          · exact .inl hrefused
          · exact .inr ⟨c, List.mem_append_left _ hc, hid⟩
        · obtain ⟨rfl, rfl⟩ := RuntimeIoCommand.completeSend.inj (List.mem_singleton.mp hmem)
          exact .inr ⟨completion, List.mem_append_right _ (List.mem_singleton_self _), rfl⟩
    | none =>
      refine ⟨hfaithful, h.moves, hqueued, ?_, ?_, h.settled⟩
      · intro c hc
        obtain ⟨result, hmem, hsent⟩ := h.submitted c hc
        simp only [hreceived]
        exact ⟨result, List.mem_append_left _ hmem, hsent⟩
      · intro _ sendId result hmem
        simp only [hreceived] at hmem ⊢
        rcases List.mem_append.mp hmem with hmem | hmem
        · rcases h.received hstopped sendId result hmem with hrefused | hsubmitted
          · exact .inl (List.mem_append_left _ hrefused)
          · exact .inr hsubmitted
        · rw [← List.mem_singleton.mp hmem]
          exact .inl (List.mem_append_right _ (List.mem_singleton_self _))
  · exact h

/-- So does handling the completions. -/
theorem Linked.complete (h : Linked ar packet sendCallback e) :
    Linked ar packet sendCallback (e.complete ar packet) := by
  have hsettled := settled_completions h.moves fun c hc => h.known (List.mem_append_right _ hc)
  have hall : e.completions ++ [] = e.completions := List.append_nil _
  exact h.goOn (Transport.processSendCompletions_moves _ _) rfl hsettled (fun c hc => hall ▸ hc)
    fun hrunning => ⟨hrunning, fun c hc => hall.symm ▸ hc⟩

/-- The worker goes on with anything but completions. A stop drops those in the queue. -/
theorem Linked.owner (h : Linked ar packet sendCallback e) (op : SendOp) (hop : op.handled = []) :
    ∃ sends, e.sends.step op = some sends ∧ Linked ar packet sendCallback (e.goOn ar packet sends) ∧
      Linked ar packet sendCallback
        { e.goOn ar packet sends with completions := [], stopped := true } := by
  obtain ⟨sends, hstep, hmoves⟩ := e.sends.step_spec op
  rw [hop] at hmoves
  have hnone := (List.append_nil e.handled).symm
  refine ⟨sends, hstep, ?_, ?_⟩
  · exact h.goOn hmoves hnone (fun _ => List.forall_mem_nil _) (fun _ => id)
      fun hrunning => ⟨hrunning, fun _ => id⟩
  · exact h.goOn hmoves hnone (fun _ => List.forall_mem_nil _) (List.forall_mem_nil _)
      fun hstopped => absurd hstopped.symm Bool.false_ne_true

/-- One act, which always comes to an end. -/
theorem Linked.step (h : Linked ar packet sendCallback e) (act : Act) :
    ∃ e', e.step ar packet act = some e' ∧ Linked ar packet sendCallback e' := by
  have hgoOn : ∀ op, op.handled = [] → ∃ e', (e.sends.step op).map (e.goOn ar packet) = some e' ∧
        Linked ar packet sendCallback e' := by
    intro op hop
    obtain ⟨sends, hstep, hlinked, -⟩ := h.owner op hop
    exact ⟨_, by rw [hstep]; rfl, hlinked⟩
  cases act with
  | task turn =>
    cases turn with
    | transmit => exact ⟨e, rfl, h⟩
    | consume => exact ⟨e, rfl, h⟩
    | _ => exact ⟨_, rfl, h.task rfl rfl⟩
  | owner op =>
    cases op with
    | completions => exact ⟨e, rfl, h⟩
    | stop =>
      obtain ⟨sends, hstep, -, hlinked⟩ := h.owner .stop rfl
      exact ⟨_, by rw [Sides.step, hstep]; rfl, hlinked⟩
    | create transport => exact hgoOn (.create transport) rfl
    | send x => exact hgoOn (.send x) rfl
    | close transport status => exact hgoOn (.close transport status) rfl
  | drain alloc => exact ⟨_, rfl, h.drain alloc⟩
  | complete => exact ⟨_, rfl, h.complete⟩

/-- Every run comes to an end and keeps the two sides together. -/
theorem runExchange_linked (capacity : ℕ) (udp : Bool) (acts : List Act) :
    ∃ e, runExchange ar packet capacity udp sendCallback acts = some e ∧
      Linked ar packet sendCallback e := by
  induction acts using List.reverseRecOn with
  | nil => exact ⟨_, rfl, linked_init ar packet sendCallback capacity udp⟩
  | append_singleton acts act ih =>
    obtain ⟨e, hrun, h⟩ := ih
    obtain ⟨e', hstep, h'⟩ := h.step act
    refine ⟨e', ?_, h'⟩
    rw [runExchange] at hrun ⊢
    rw [List.foldlM_append, hrun]
    simpa using hstep

end

/-! ## Main results -/

/-- A byte count that is not negative is that of a message which was sent. -/
theorem result_of_nonneg {sent : Int} (h : sentBytes result = some sent)
    (hsent : 0 ≤ sent) : result = .ok sent.toNat := by
  cases result with
  | ok bytes =>
    rw [sentBytes] at h
    split at h
    · rw [← Option.some.inj h]
      rfl
    · exact nomatch h
  | error status =>
    have hneg := Option.some.inj h
    unfold errorMagnitude at hneg
    split at hneg <;> omega

section
variable (ar : Arith) (packet : ℕ → Packet) (capacity : ℕ) (udp sendCallback : Bool)

/-- **PJSIP is told what became of its own message.** The worker and the tasks of the socket layer
may be interleaved in any way, sockets may fail, queues may be full and memory may run out. A
callback that is called for a completion is called once, and with the result that the socket layer
had for the very message of its send: a byte count that is not negative says that this message was
sent, and if it was written to a connection, that the connection has the association that PJSIP sent
it to. -/
theorem completions_truthful (acts : List Act) :
    ∃ e, runExchange ar packet capacity udp sendCallback acts = some e ∧
      (e.sends.sendIds.length ≤ 2 ^ 64 → ∀ n sent, (n, .bytes sent) ∈ e.sends.invoked →
        e.sends.calls n = 1 ∧
        ∃ o ∈ e.history.outcomes, ∃ sendId, e.sends.idOf n = some sendId ∧
          o.transmit = (packet n).transmit sendId ∧ sentBytes o.result = some sent ∧
          (0 ≤ sent → o.result = .ok sent.toNat) ∧
          ∀ k, o.connection = some k → ∃ c, e.history.tasks.connections[k]? = some c ∧
            c.associationId = (packet n).associationId) := by
  obtain ⟨e, hrun, h⟩ := runExchange_linked capacity udp acts
  refine ⟨e, hrun, fun hfew n sent hinvoked => ⟨?_, ?_⟩⟩
  · have hcalled : 0 < e.sends.calls n :=
      List.count_pos_iff.mpr (List.mem_map_of_mem (f := Prod.fst) hinvoked)
    have hbalance := (balanced h.moves).balance n
    have htold := (balanced h.moves).told n
    split at hbalance <;> split at htold <;> omega
  · obtain ⟨c, hc, hid, hsent⟩ := told_of_moves h.moves n sent hinvoked
    obtain ⟨result, hmem, hbytes⟩ := h.submitted c (List.mem_append_left _ hc)
    obtain ⟨o, ho, hresult, m, hasCallback, hrecord, htransmit⟩ := h.outcome hmem
    have hidm : e.sends.idOf m = some c.sendId := by
      rw [Sends.idOf, hrecord]
      rfl
    obtain rfl : m = n := Transport.idOf_inj (nodup_sendIds h.moves hfew) hidm hid
    rw [← hresult, hsent] at hbytes
    refine ⟨o, ho, c.sendId, hid, htransmit, hbytes, result_of_nonneg hbytes, ?_⟩
    intro k hk
    have hassociation := (h.faithful.outcomes o ho).2 k hk
    rw [htransmit] at hassociation
    exact Option.map_eq_some_iff.mp hassociation

end

/-- Every message is for the first connection. -/
def samplePacket (_ : ℕ) : Packet := ⟨1, .tcp, [65, 66]⟩

/-- A connection comes, and PJSIP sends two messages to it. -/
def sampleSends : List Act :=
  [.task (.accept (sampleHost 1)), .task (.start 0 (some (sampleHost 2))), .owner (.create 1),
    .owner (.send (Transport.plainSend 1 [])), .owner (.send (Transport.plainSend 1 [])),
    .task .dispatch, .task .dispatch, .task (.receiveRequest 0)]

/-- The first message is written, and its completion goes all the way back. -/
def sampleWritten : List Act :=
  sampleSends ++ [.task (.written 0 true), .drain ⟨true, true⟩, .complete]

/-- A send whose two bytes are written. -/
theorem completions_truthful_sample :
    ∃ e, runExchange .exact samplePacket 8 false true sampleWritten = some e ∧
      (0, .bytes 2) ∈ e.sends.invoked ∧ e.sends.calls 0 = 1 ∧
      ∃ o ∈ e.history.outcomes, o.transmit.data = [65, 66] ∧ o.result = .ok 2 := by
  obtain ⟨e, hrun, htruthful⟩ := completions_truthful .exact samplePacket 8 false true sampleWritten
  have hinvoked : (runExchange .exact samplePacket 8 false true sampleWritten).map
      (fun e => (e.sends.sendIds, e.sends.invoked)) = some ([1, 2], [(0, .bytes 2)]) := by
    decide +kernel
  rw [hrun] at hinvoked
  obtain ⟨hids, hinvoked⟩ := Prod.mk.inj (Option.some.inj hinvoked)
  have hmem : (0, Sent.bytes 2) ∈ e.sends.invoked := by
    rw [hinvoked]
    exact List.mem_singleton_self _
  obtain ⟨hcalls, o, ho, sendId, -, htransmit, -, hresult, -⟩ :=
    htruthful (by rw [hids]; decide) 0 2 hmem
  exact ⟨e, hrun, hmem, hcalls, o, ho, by rw [htransmit]; rfl, hresult (by decide)⟩

section
variable (ar : Arith) (packet : ℕ → Packet) (capacity : ℕ) (udp sendCallback : Bool)

/-- Something is still to come for the send: its message is in the transmit queue or with a task, or
its completion is in the channel or in the queue of the shim. -/
def Sides.Underway (e : Sides) (p : PendingSend) : Prop :=
  (packet p.number).transmit p.sendId ∈ e.history.tasks.transmits ∨
    (∃ transmit ∈ e.history.tasks.outstanding, transmit.sendId = p.sendId) ∨
    (∃ result, .completeSend p.sendId result ∈ e.history.tasks.channel) ∨
    ∃ c ∈ e.completions, c.sendId = p.sendId

/-- The completion of the send was lost: the channel was full, a writer dropped the message, or the
worker could not submit it. -/
def Sides.Lost (e : Sides) (p : PendingSend) : Prop :=
  (∃ result, .completeSend p.sendId result ∈ e.history.tasks.lost) ∨
    (∃ transmit ∈ e.history.tasks.dropped, transmit.sendId = p.sendId) ∨
    ∃ result, (p.sendId, result) ∈ e.refused

/-- A message that was taken is with a task, was reported, or was dropped. -/
theorem taken_accounted {b : Books} (h : Accounted b) {transmit : SipTransmit}
    (hmem : transmit ∈ b.taken) :
    (∃ t ∈ b.outstanding, t.sendId = transmit.sendId) ∨
      (∃ a ∈ b.log, ∃ result, a.command = .completeSend transmit.sendId result) ∨
      ∃ t ∈ b.dropped, t.sendId = transmit.sendId := by
  have haccounted := h transmit.sendId
  have htaken : 0 < b.taken.countP (SipTransmit.sends transmit.sendId) :=
    List.countP_pos_iff.mpr ⟨transmit, hmem, by simp [SipTransmit.sends]⟩
  have hsends : ∀ {l : List SipTransmit}, 0 < l.countP (SipTransmit.sends transmit.sendId) →
      ∃ t ∈ l, t.sendId = transmit.sendId := by
    intro l hpos
    obtain ⟨t, ht, hsend⟩ := List.countP_pos_iff.mp hpos
    exact ⟨t, ht, of_decide_eq_true hsend⟩
  by_cases htask : 0 < b.outstanding.countP (SipTransmit.sends transmit.sendId)
  · exact .inl (hsends htask)
  by_cases hlog : 0 < b.log.countP (fun a => a.command.completes transmit.sendId)
  · obtain ⟨a, ha, hcompletes⟩ := List.countP_pos_iff.mp hlog
    refine .inr (.inl ⟨a, ha, ?_⟩)
    cases hcommand : a.command with
    | completeSend sendId result =>
      rw [hcommand] at hcompletes
      exact ⟨result, by rw [of_decide_eq_true hcompletes]⟩
    | _ =>
      rw [hcommand] at hcompletes
      cases hcompletes
  · exact .inr (.inr (hsends (by omega)))

/-- A pending send whose completion was reported. The shim has not handled the completion: if it
had, the send would not be pending. -/
theorem Linked.reported_accounted {ar packet sendCallback} {e : Sides}
    (h : Linked ar packet sendCallback e) (hfew : e.sends.sendIds.length ≤ 2 ^ 64)
    (hrunning : e.stopped = false) {p : PendingSend} (hp : p ∈ e.sends.pendingSends) {a : Attempt}
    (ha : a ∈ e.history.tasks.log)
    (hcommand : a.command = .completeSend p.sendId result) : e.Underway packet p ∨ e.Lost p := by
  by_cases haccepted : a.accepted = true
  · have hput : .completeSend p.sendId result ∈ e.history.tasks.put :=
      List.mem_map.mpr ⟨a, List.mem_filter.mpr ⟨ha, haccepted⟩, hcommand⟩
    rw [← h.faithful.received, List.mem_append] at hput
    rcases hput with hreceived | hchannel
    · rcases h.received hrunning p.sendId result hreceived with hrefused | ⟨c, hc, hid⟩
      · exact .inr (.inr (.inr ⟨result, hrefused⟩))
      · rcases List.mem_append.mp hc with hc | hc
        · exact absurd hid.symm (h.settled hfew c hc p hp)
        · exact .inl (.inr (.inr (.inr ⟨c, hc, hid⟩)))
    · exact .inl (.inr (.inr (.inl ⟨result, hchannel⟩)))
  · have hlost : .completeSend p.sendId result ∈ e.history.tasks.lost :=
      List.mem_map.mpr ⟨a, List.mem_filter.mpr ⟨ha, by simpa using haccepted⟩, hcommand⟩
    exact .inr (.inl ⟨result, hlost⟩)

/-- **No send is forgotten.** While the runtime is not stopped, a send that is pending in the shim
is underway, or its completion was lost in one of three ways: it met a full channel, its message was
dropped with the queue of a writer that failed, or the worker could not submit it. -/
theorem sends_accounted (acts : List Act) :
    ∃ e, runExchange ar packet capacity udp sendCallback acts = some e ∧
      (e.sends.sendIds.length ≤ 2 ^ 64 → e.stopped = false →
        ∀ p ∈ e.sends.pendingSends, e.Underway packet p ∨ e.Lost p) := by
  obtain ⟨e, hrun, h⟩ := runExchange_linked capacity udp acts
  refine ⟨e, hrun, fun hfew hrunning p hp => ?_⟩
  have hqueued : (packet p.number).transmit p.sendId ∈ transmitsOf packet e.sends :=
    mem_transmitsOf.mpr ⟨p.number, p.sendId, p.hasCallback, (balanced h.moves).linked p hp, rfl⟩
  rw [← h.queued, ← h.faithful.queued, List.mem_append] at hqueued
  rcases hqueued with htaken | htransmits
  · rcases taken_accounted h.faithful.accounted htaken with htask | ⟨a, ha, result, hcommand⟩ | hdrop
    · exact .inl (.inr (.inl htask))
    · exact h.reported_accounted hfew hrunning hp ha hcommand
    · exact .inr (.inr (.inl hdrop))
  · exact .inl (.inl htransmits)

end

/-- The first write fails, and the second message is dropped with the queue of the writer. -/
def sampleFailed : List Act :=
  sampleSends ++ [.task (.written 0 false), .drain ⟨true, true⟩, .complete]

/-- One send fails, the other is still pending. -/
theorem sends_accounted_sample :
    ∃ e, runExchange .exact samplePacket 8 false true sampleFailed = some e ∧
      e.sends.pendingSends.map PendingSend.sendId = [2] ∧
      ∀ p ∈ e.sends.pendingSends, e.Underway samplePacket p ∨ e.Lost p := by
  obtain ⟨e, hrun, haccounted⟩ := sends_accounted .exact samplePacket 8 false true sampleFailed
  have hstate : (runExchange .exact samplePacket 8 false true sampleFailed).map
      (fun e => (e.sends.sendIds, e.stopped, e.sends.pendingSends.map PendingSend.sendId)) =
        some ([1, 2], false, [2]) := by
    decide +kernel
  rw [hrun] at hstate
  obtain ⟨hids, hstate⟩ := Prod.mk.inj (Option.some.inj hstate)
  obtain ⟨hrunning, hpending⟩ := Prod.mk.inj hstate
  exact ⟨e, hrun, hpending, haccounted (by rw [hids]; decide) hrunning⟩

end GmvPjsip.Exchange
