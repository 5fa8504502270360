import GmvPjsip.Auth.Server
import GmvPjsip.Commands.Queues

/-!
# TCP associations

The shim has one transport for each TCP association it knows, and at most one for UDP. A TCP
transport is made by the first packet of its association and unlinked when a close command is run;
there is no record of associations that were closed.

* `transportOwner` is the owner thread as far as transports go: what a receive and a close command
  do to the list, and which packets reach PJSIP.
* `associations_stay_closed`: there is never a second transport for an association, nor a second one
  for UDP. Once a poll has run a close, the association has no transport and no packet of it is
  delivered, as long as no further packet of it is submitted.
* `association_reopens`: the packet that comes after the close makes a new transport.
-/

namespace GmvPjsip.Transport

open GmvPjsip.Auth
open GmvPjsip.Commands

/-! ## The code -/

/-- The part of `gmv_custom_transport` that says whose transport it is. -/
structure OpenTransport where
  protocol : SipTransport
  associationId : ℕ
  deriving DecidableEq, Repr

/-- What the handlers get from outside the shim. The functions say what the handler of the command
of a call gets: what creating a transport for it ends with, and what `gmv_receive_on_transport`
returns for it. -/
structure HandlerEnv where
  enableUdp : Bool
  create : ℕ → PjStatus
  receive : ℕ → PjStatus

/-- What a handler does. -/
inductive Deed
  /-- A packet is handed to PJSIP. -/
  | delivered (transport : SipTransport) (associationId : ℕ)
  /-- A RUNTIME_FAULT event is emitted. -/
  | fault (transport : SipTransport) (status : PjStatus)
  /-- A close command is run, whether or not there is a transport to close. -/
  | ranClose (transport : SipTransport) (associationId : ℕ)
  deriving DecidableEq, Repr

/-- The transports, the newest first, and what was done so far. -/
structure World where
  transports : List OpenTransport
  deeds : List Deed
  deriving DecidableEq, Repr

/-- The transport is the one for this protocol and association. -/
def OpenTransport.serves (protocol : SipTransport) (associationId : ℕ) (t : OpenTransport) : Bool :=
  t.protocol = protocol ∧ (protocol = .udp ∨ t.associationId = associationId)

/-- Source: `shim_transport.inc`, `gmv_find_transport` -/
def findTransport (w : World) (protocol : SipTransport) (associationId : ℕ) : Option OpenTransport :=
  w.transports.find? (OpenTransport.serves protocol associationId)

/-- Source: `shim_transport.inc`, `gmv_create_custom_transport` -/
def createCustomTransport (status : PjStatus) (w : World) (protocol : SipTransport)
    (associationId : ℕ) : PjStatus × World :=
  if status ≠ .success then (status, w)
  else (.success, { w with transports := ⟨protocol, associationId⟩ :: w.transports })

/-- Find the transport of a packet, or make one for a new TCP association.
Source: `shim.c`, `gmv_process_receive_commands` -/
def transportForPacket (status : PjStatus) (w : World) (command : ReceiveCommand) : PjStatus × World :=
  match findTransport w command.transport command.associationId with
  | some _ => (.success, w)
  | none =>
    if command.transport = .tcp then
      createCustomTransport status w command.transport command.associationId
    else (.enotfound, w)

/-- Report what went wrong, if anything did. -/
def reportFault (transport : SipTransport) (status : PjStatus) (w : World) : World :=
  if status ≠ .success then { w with deeds := w.deeds ++ [.fault transport status] } else w

/-- Source: `shim.c`, `gmv_process_receive_commands` -/
def processReceiveCommand (env : HandlerEnv) (w : World) (call : ℕ) (command : ReceiveCommand) :
    World :=
  let (status, w') := transportForPacket (env.create call) w command
  if status = .success then
    reportFault command.transport (env.receive call)
      { w' with deeds := w'.deeds ++ [.delivered command.transport command.associationId] }
  else reportFault command.transport status w'

/-- Source: `shim.c`, `gmv_process_close_commands`; `shim_transport.inc`,
`gmv_close_custom_transport` -/
def processCloseCommand (w : World) (command : CloseCommand) : World :=
  let w' := { w with deeds := w.deeds ++ [.ranClose command.transport command.associationId] }
  match findTransport w command.transport command.associationId with
  | none => w'
  | some t =>
    if t.protocol = .tcp then
      { w' with transports :=
          w.transports.eraseP (OpenTransport.serves command.transport command.associationId) }
    else w'

/-- The owner thread. A runtime starts with its UDP transport, if it is to have one, and closes all
transports when it is released. The other commands look a transport up and send on it.
Source: `shim.c`, `gmv_sip_runtime_start`, `gmv_runtime_release` -/
def transportOwner (env : HandlerEnv) : Owner World where
  start w := if env.enableUdp then { w with transports := ⟨.udp, 0⟩ :: w.transports } else w
  handle w t :=
    match t.item with
    | .receive command => processReceiveCommand env w t.call command
    | .close command => processCloseCommand w command
    | _ => w
  release w _ := { w with transports := [] }

section
variable (pj : Pjsip) (env : HandlerEnv) (ops : List Op)

/-- The transports and deeds after these calls. -/
def worldAfter : World := (run pj (transportOwner env) ⟨[], []⟩ ops).world

end

/-- No packet of this TCP association is submitted. -/
def NoPacket (associationId : ℕ) (ops : List Op) : Prop :=
  ∀ alloc packet, .submit alloc (.receivePacket packet) ∈ ops → packet.transport = .tcp →
    packet.associationId ≠ associationId

/-- The poll that follows these calls runs a close of this association. -/
def RunsClose (pj : Pjsip) (env : HandlerEnv) (before : List Op) (associationId : ℕ) : Prop :=
  ∃ now, (worldAfter pj env (before ++ [.poll])).deeds = (worldAfter pj env before).deeds ++ now ∧
    .ranClose .tcp associationId ∈ now

/-! ## What a handler does -/

/-- A receive command of this TCP association. -/
def IsPacketOf (associationId : ℕ) : Command → Prop
  | .receive command => command.transport = .tcp ∧ command.associationId = associationId
  | _ => False

/-- A close command of this TCP association. -/
def IsCloseOf (associationId : ℕ) : Command → Prop
  | .close command => command.transport = .tcp ∧ command.associationId = associationId
  | _ => False

/-- At most one transport for each TCP association, and one for UDP. -/
def Unique (transports : List OpenTransport) : Prop :=
  ∀ protocol associationId, (transports.filter (OpenTransport.serves protocol associationId)).length ≤ 1

/-- The TCP association has a transport. -/
def IsOpen (associationId : ℕ) (transports : List OpenTransport) : Prop :=
  ⟨.tcp, associationId⟩ ∈ transports

/-- Deeds are only added, and none of them delivers a packet of this TCP association. -/
def NoDelivery (associationId : ℕ) (deeds deeds' : List Deed) : Prop :=
  ∃ later, deeds' = deeds ++ later ∧ .delivered .tcp associationId ∉ later

/-- Nothing done, nothing delivered. -/
theorem NoDelivery.refl (associationId : ℕ) (deeds : List Deed) :
    NoDelivery associationId deeds deeds :=
  ⟨[], (List.append_nil _).symm, List.not_mem_nil⟩

variable {associationId : ℕ} {transports : List OpenTransport} {w : World} {l : Ledger World}

/-- Two stretches without a delivery. -/
theorem NoDelivery.trans {deeds deeds' deeds'' : List Deed}
    (h : NoDelivery associationId deeds deeds') (h' : NoDelivery associationId deeds' deeds'') :
    NoDelivery associationId deeds deeds'' := by
  obtain ⟨later, rfl, hlater⟩ := h
  obtain ⟨later', rfl, hlater'⟩ := h'
  refine ⟨later ++ later', List.append_assoc .., fun hmem => ?_⟩
  exact (List.mem_append.mp hmem).elim hlater hlater'

/-- No transports at first. -/
theorem unique_nil : Unique [] := fun _ _ => Nat.zero_le 1

/-- Fewer transports are as unique. -/
theorem Unique.sublist {transports' : List OpenTransport} (h : Unique transports)
    (hsub : transports'.Sublist transports) : Unique transports' :=
  fun protocol associationId =>
    Nat.le_trans (hsub.filter _).length_le (h protocol associationId)

/-- A packet finds its transport, makes one for its TCP association, or fails. -/
theorem transportForPacket_cases (status : PjStatus) (w : World) (command : ReceiveCommand) :
    (transportForPacket status w command).2 = w ∨
      command.transport = .tcp ∧ findTransport w .tcp command.associationId = none ∧
        (transportForPacket status w command).2 =
          { w with transports := ⟨.tcp, command.associationId⟩ :: w.transports } := by
  unfold transportForPacket
  cases hfind : findTransport w command.transport command.associationId with
  | some t => exact .inl rfl
  | none =>
    by_cases htcp : command.transport = .tcp
    · simp only [if_pos htcp, createCustomTransport]
      by_cases hstatus : status = .success
      · right
        rw [if_neg (not_not.mpr hstatus), htcp]
        exact ⟨rfl, htcp ▸ hfind, rfl⟩
      · left
        rw [if_pos hstatus]
    · left
      simp only [if_neg htcp]

/-- Reporting a fault opens and closes nothing. -/
theorem reportFault_transports (transport : SipTransport) (status : PjStatus) (w : World) :
    (reportFault transport status w).transports = w.transports := by
  unfold reportFault
  split <;> rfl

/-- It does nothing but report. -/
theorem reportFault_deeds (transport : SipTransport) (status : PjStatus) (w : World) :
    ∃ now, (reportFault transport status w).deeds = w.deeds ++ now ∧
      ∀ deed ∈ now, deed = .fault transport status := by
  unfold reportFault
  split
  · exact ⟨_, rfl, fun deed hmem => List.mem_singleton.mp hmem⟩
  · exact ⟨[], (List.append_nil _).symm, fun deed hmem => absurd hmem List.not_mem_nil⟩

/-- A packet opens at most its own transport. -/
theorem processReceiveCommand_transports (env : HandlerEnv) (w : World) (call : ℕ)
    (command : ReceiveCommand) :
    (processReceiveCommand env w call command).transports =
      (transportForPacket (env.create call) w command).2.transports := by
  simp only [processReceiveCommand]
  split <;> rw [reportFault_transports]

/-- Finding the transport of a packet is no deed. -/
theorem transportForPacket_deeds (status : PjStatus) (w : World) (command : ReceiveCommand) :
    (transportForPacket status w command).2.deeds = w.deeds := by
  rcases transportForPacket_cases status w command with h | ⟨-, -, h⟩ <;> rw [h]

/-- A receive command delivers its packet and reports faults, and does nothing else. -/
theorem processReceiveCommand_deeds (env : HandlerEnv) (w : World) (call : ℕ)
    (command : ReceiveCommand) :
    ∃ now, (processReceiveCommand env w call command).deeds = w.deeds ++ now ∧
      ∀ deed ∈ now, deed = .delivered command.transport command.associationId ∨
        ∃ status, deed = .fault command.transport status := by
  simp only [processReceiveCommand]
  rw [← transportForPacket_deeds (env.create call) w command]
  split
  · obtain ⟨now, hnow, hfault⟩ := reportFault_deeds command.transport (env.receive call) _
    refine ⟨_ :: now, hnow.trans (List.append_assoc ..), fun deed hmem => ?_⟩
    rcases List.mem_cons.mp hmem with rfl | hmem
    · exact .inl rfl
    · exact .inr ⟨_, hfault deed hmem⟩
  · obtain ⟨now, hnow, hfault⟩ := reportFault_deeds command.transport _ _
    exact ⟨now, hnow, fun deed hmem => .inr ⟨_, hfault deed hmem⟩⟩

/-- A new transport is the only one of its association. -/
theorem Unique.cons {protocol : SipTransport} (h : Unique transports)
    (hnew : transports.find? (OpenTransport.serves protocol associationId) = none) :
    Unique (⟨protocol, associationId⟩ :: transports) := by
  intro protocol' associationId'
  rw [List.filter_cons]
  split
  · next hserves =>
      -- whoever is served by the new transport was served by none
      have hsame : OpenTransport.serves protocol' associationId' =
          OpenTransport.serves protocol associationId := by
        simp only [OpenTransport.serves, decide_eq_true_eq] at hserves
        obtain ⟨rfl, hassociation⟩ := hserves
        funext t
        rcases hassociation with rfl | rfl
        · simp [OpenTransport.serves]
        · rfl
      have hnone : transports.filter (OpenTransport.serves protocol' associationId') = [] := by
        rw [hsame]
        exact List.filter_eq_nil_iff.mpr (List.find?_eq_none.mp hnew)
      rw [hnone]
      exact Nat.le_refl 1
  · exact h protocol' associationId'

/-- Closing takes the only transport of an association away. -/
theorem Unique.not_isOpen_eraseP (h : Unique transports) :
    ¬IsOpen associationId (transports.eraseP (OpenTransport.serves .tcp associationId)) := by
  intro hopen
  have hserves : OpenTransport.serves .tcp associationId ⟨.tcp, associationId⟩ = true := by
    simp [OpenTransport.serves]
  obtain ⟨t, front, rest, -, ht, hlist, herase⟩ :=
    List.exists_of_eraseP (List.mem_of_mem_eraseP hopen) hserves
  have hlength := h .tcp associationId
  rw [hlist, List.filter_append, List.filter_cons_of_pos ht, List.length_append,
    List.length_cons] at hlength
  have hnone : ∀ l : List OpenTransport,
      (l.filter (OpenTransport.serves .tcp associationId)).length = 0 → ⟨.tcp, associationId⟩ ∉ l := by
    intro l hl hmem
    rw [List.length_eq_zero_iff, List.filter_eq_nil_iff] at hl
    exact hl _ hmem hserves
  rw [IsOpen, herase] at hopen
  rcases List.mem_append.mp hopen with hfront | hrest
  · exact hnone front (by omega) hfront
  · exact hnone rest (by omega) hrest

/-- An association without a transport is not open. -/
theorem not_isOpen_of_find
    (h : findTransport w .tcp associationId = none) : ¬IsOpen associationId w.transports := by
  intro hopen
  have hserves := List.find?_eq_none.mp h _ hopen
  exact hserves (by simp [OpenTransport.serves])

/-! ## What the commands of a poll do -/

section
variable (env : HandlerEnv) {w : World} {t : Tagged Command} {associationId : ℕ}

/-- A close opens nothing. -/
theorem processCloseCommand_sublist (w : World) (command : CloseCommand) :
    (processCloseCommand w command).transports.Sublist w.transports := by
  unfold processCloseCommand
  cases findTransport w command.transport command.associationId with
  | none => exact List.Sublist.refl _
  | some found =>
    simp only
    split
    · exact List.eraseP_sublist
    · exact List.Sublist.refl _

/-- It notes that it ran. -/
theorem processCloseCommand_deeds (w : World) (command : CloseCommand) :
    (processCloseCommand w command).deeds =
      w.deeds ++ [.ranClose command.transport command.associationId] := by
  unfold processCloseCommand
  cases findTransport w command.transport command.associationId with
  | none => rfl
  | some found =>
    simp only
    split <;> rfl

/-- Deeds are only added. A packet is delivered for a packet and a close is run for a close. -/
theorem handle_deeds (w : World) (t : Tagged Command) :
    ∃ now, ((transportOwner env).handle w t).deeds = w.deeds ++ now ∧
      ∀ associationId, (.delivered .tcp associationId ∈ now → IsPacketOf associationId t.item) ∧
        (.ranClose .tcp associationId ∈ now → IsCloseOf associationId t.item) := by
  obtain ⟨call, command⟩ := t
  cases command with
  | receive command =>
    obtain ⟨now, hnow, hdeeds⟩ := processReceiveCommand_deeds env w call command
    refine ⟨now, hnow, fun associationId => ⟨fun hmem => ?_, fun hmem => ?_⟩⟩
    · rcases hdeeds _ hmem with hpacket | ⟨status, hfault⟩
      · obtain ⟨htcp, hassociation⟩ := Deed.delivered.inj hpacket
        exact ⟨htcp.symm, hassociation.symm⟩
      · cases hfault
    · rcases hdeeds _ hmem with hpacket | ⟨status, hfault⟩
      · cases hpacket
      · cases hfault
  | close command =>
    refine ⟨_, processCloseCommand_deeds w command, fun associationId => ⟨fun hmem => ?_,
      fun hmem => ?_⟩⟩
    · cases List.mem_singleton.mp hmem
    · obtain ⟨htcp, hassociation⟩ := Deed.ranClose.inj (List.mem_singleton.mp hmem)
      exact ⟨htcp.symm, hassociation.symm⟩
  | _ =>
    exact ⟨[], (List.append_nil _).symm, fun _ => ⟨fun hmem => absurd hmem List.not_mem_nil,
      fun hmem => absurd hmem List.not_mem_nil⟩⟩

/-- A handler keeps the transports unique. -/
theorem Unique.handle (h : Unique w.transports) :
    Unique ((transportOwner env).handle w t).transports := by
  obtain ⟨call, command⟩ := t
  cases command with
  | receive command =>
    show Unique (processReceiveCommand env w call command).transports
    rw [processReceiveCommand_transports]
    rcases transportForPacket_cases (env.create call) w command with hsame | ⟨-, hnew, hcons⟩
    · rw [hsame]
      exact h
    · rw [hcons]
      exact h.cons hnew
  | close command => exact h.sublist (processCloseCommand_sublist w command)
  | _ => exact h

/-- A handler opens an association and delivers to it only for a packet of it. -/
theorem shut_handle (hpacket : ¬IsPacketOf associationId t.item)
    (h : ¬IsOpen associationId w.transports) :
    ¬IsOpen associationId ((transportOwner env).handle w t).transports ∧
      NoDelivery associationId w.deeds ((transportOwner env).handle w t).deeds := by
  constructor
  · obtain ⟨call, command⟩ := t
    cases command with
    | receive command =>
      show ¬IsOpen associationId (processReceiveCommand env w call command).transports
      rw [processReceiveCommand_transports]
      rcases transportForPacket_cases (env.create call) w command with hsame | ⟨htcp, -, hcons⟩
      · rw [hsame]
        exact h
      · rw [hcons]
        intro hopen
        rcases List.mem_cons.mp hopen with hnew | hold
        · exact hpacket ⟨htcp, (OpenTransport.mk.inj hnew).2.symm⟩
        · exact h hold
    | close command => exact fun hopen => h ((processCloseCommand_sublist w command).subset hopen)
    | _ => exact h
  · obtain ⟨now, hnow, hcauses⟩ := handle_deeds env w t
    exact ⟨now, hnow, fun hmem => hpacket ((hcauses associationId).1 hmem)⟩

/-- A close shuts the association. -/
theorem shut_of_close (hunique : Unique w.transports) (hclose : IsCloseOf associationId t.item) :
    ¬IsOpen associationId ((transportOwner env).handle w t).transports := by
  obtain ⟨call, command⟩ := t
  cases command with
  | close command =>
    obtain ⟨htcp, rfl⟩ := hclose
    show ¬IsOpen _ (processCloseCommand w command).transports
    unfold processCloseCommand
    rw [htcp]
    cases hfind : findTransport w .tcp command.associationId with
    | none => exact not_isOpen_of_find hfind
    | some found =>
      have hprotocol : found.protocol = .tcp := by
        have hserves := List.find?_some hfind
        simp only [OpenTransport.serves, decide_eq_true_eq] at hserves
        exact hserves.1
      simp only [if_pos hprotocol]
      exact hunique.not_isOpen_eraseP
  | _ => exact hclose.elim

end

section
variable (env : HandlerEnv) {associationId : ℕ}

/-- Commands keep the transports unique. -/
theorem Unique.foldl (h : Unique w.transports) (commands : List (Tagged Command)) :
    Unique (commands.foldl (transportOwner env).handle w).transports := by
  induction commands generalizing w with
  | nil => exact h
  | cons t rest ih => exact ih (h.handle env)

/-- Commands without a packet of a shut association leave it shut. -/
theorem shut_foldl {commands : List (Tagged Command)}
    (hpackets : ∀ t ∈ commands, ¬IsPacketOf associationId t.item)
    (h : ¬IsOpen associationId w.transports) :
    ¬IsOpen associationId (commands.foldl (transportOwner env).handle w).transports ∧
      NoDelivery associationId w.deeds (commands.foldl (transportOwner env).handle w).deeds := by
  induction commands generalizing w with
  | nil => exact ⟨h, NoDelivery.refl _ _⟩
  | cons t rest ih =>
    obtain ⟨hshut, hquiet⟩ := shut_handle env (hpackets t List.mem_cons_self) h
    obtain ⟨hshut', hquiet'⟩ := ih (fun t' ht' => hpackets t' (List.mem_cons_of_mem _ ht')) hshut
    exact ⟨hshut', hquiet.trans hquiet'⟩

/-- A close among commands without a packet of the association shuts it. -/
theorem shut_foldl_of_close {commands : List (Tagged Command)} {t : Tagged Command}
    (hunique : Unique w.transports) (ht : t ∈ commands) (hclose : IsCloseOf associationId t.item)
    (hpackets : ∀ t ∈ commands, ¬IsPacketOf associationId t.item) :
    ¬IsOpen associationId (commands.foldl (transportOwner env).handle w).transports := by
  obtain ⟨front, rest, rfl⟩ := List.append_of_mem ht
  rw [List.foldl_append, List.foldl_cons]
  refine (shut_foldl env (fun t' ht' => hpackets t' ?_) ?_).1
  · exact List.mem_append_right _ (List.mem_cons_of_mem _ ht')
  · exact shut_of_close env (hunique.foldl env front) hclose

/-- Only a close command closes. -/
theorem foldl_deeds (w : World) (commands : List (Tagged Command)) :
    ∃ now, (commands.foldl (transportOwner env).handle w).deeds = w.deeds ++ now ∧
      ∀ associationId, .ranClose .tcp associationId ∈ now →
        ∃ t ∈ commands, IsCloseOf associationId t.item := by
  induction commands generalizing w with
  | nil => exact ⟨[], (List.append_nil _).symm, fun _ hmem => absurd hmem List.not_mem_nil⟩
  | cons t rest ih =>
    obtain ⟨now, hnow, hcause⟩ := handle_deeds env w t
    obtain ⟨later, hlater, hcauses⟩ := ih ((transportOwner env).handle w t)
    refine ⟨now ++ later, ?_, fun associationId hmem => ?_⟩
    · rw [List.foldl_cons, hlater, hnow, List.append_assoc]
    · rcases List.mem_append.mp hmem with hfirst | hrest
      · exact ⟨t, List.mem_cons_self, (hcause associationId).2 hfirst⟩
      · obtain ⟨t', ht', hclose⟩ := hcauses associationId hrest
        exact ⟨t', List.mem_cons_of_mem _ ht', hclose⟩

/-- A poll runs packets before closes. -/
theorem shut_poll {pending : List (Tagged Command)} {t : Tagged Command}
    (hunique : Unique w.transports) (ht : t ∈ pending) (hclose : IsCloseOf associationId t.item) :
    ¬IsOpen associationId
      ((byKind pollOrder pending).foldl (transportOwner env).handle w).transports := by
  have hsplit : byKind pollOrder pending = byKind [.completion, .receive] pending ++
      byKind [.close, .message, .invite, .dialog, .inviteResponse, .subscribe, .auth] pending :=
    byKind_append [.completion, .receive] _ _
  rw [hsplit, List.foldl_append]
  refine shut_foldl_of_close env (hunique.foldl env _) (mem_byKind.mpr ⟨?_, ht⟩) hclose ?_
  · obtain ⟨call, command⟩ := t
    cases command with
    | close => exact List.mem_cons_self
    | _ => exact hclose.elim
  · rintro ⟨call, command⟩ hmem hpacket
    cases command with
    | receive =>
      have hkind : Kind.receive ∈ _ := (mem_byKind.mp hmem).1
      simp at hkind
    | _ => exact hpacket.elim

end

/-! ## Runs -/

section
variable (pj : Pjsip) (env : HandlerEnv)

/-- The transports are unique, and a runtime that is not started has none. -/
structure Sound (l : Ledger World) : Prop where
  unique : Unique l.world.transports
  stopped : l.started = false → l.world.transports = []

/-- A call keeps the ledger sound. -/
theorem Sound.step (h : Sound l) (op : Op) : Sound (l.step pj (transportOwner env) op) := by
  cases op with
  | start =>
    simp only [Ledger.step, Ledger.start]
    split_ifs with hstarted hstatus
    · exact ⟨h.unique, h.stopped⟩
    · exact ⟨unique_nil, fun _ => rfl⟩
    · refine ⟨?_, fun hfalse => absurd hfalse (by simp)⟩
      have hnone := h.stopped (Bool.eq_false_iff.mpr hstarted)
      simp only [transportOwner]
      split
      · show Unique (⟨.udp, 0⟩ :: l.world.transports)
        rw [hnone]
        exact unique_nil.cons rfl
      · exact h.unique
  | stop =>
    simp only [Ledger.step, Ledger.stop]
    split_ifs with hstarted
    · exact ⟨h.unique, h.stopped⟩
    · exact ⟨unique_nil, fun _ => rfl⟩
  | poll =>
    simp only [Ledger.step, Ledger.poll]
    split_ifs with hstarted
    · exact ⟨h.unique, h.stopped⟩
    · exact ⟨h.unique.foldl env _, fun hfalse => absurd hfalse (by simpa using hstarted)⟩
  | submit alloc call =>
    simp only [Ledger.step, Ledger.submit]
    cases call.command pj alloc l.started with
    | error refusal => exact ⟨h.unique, h.stopped⟩
    | ok command => exact ⟨h.unique, h.stopped⟩

/-- The association has no transport, and no packet of it is pending. -/
structure Shut (associationId : ℕ) (l : Ledger World) : Prop where
  noTransport : ¬IsOpen associationId l.world.transports
  noPacket : ∀ t ∈ l.pending, ¬IsPacketOf associationId t.item

/-- A submission that is not a packet of the association is not queued as one. -/
theorem not_isPacketOf_of_command {alloc : Alloc} {started : Bool} {call : Submission}
    {command : Command} (h : call.command pj alloc started = .ok command)
    (hpacket : ∀ packet, call = .receivePacket packet → packet.transport = .tcp →
      packet.associationId ≠ associationId) : ¬IsPacketOf associationId command := by
  have hgiven := call.command_asGiven h
  intro hof
  cases call with
  | receivePacket packet =>
    obtain rfl := Option.some.inj hgiven
    exact hpacket packet rfl hof.1 hof.2
  | completeAuthLookup =>
    obtain ⟨result, -, rfl⟩ := Option.map_eq_some_iff.mp hgiven
    exact hof
  | _ =>
    obtain rfl := Option.some.inj hgiven
    exact hof

/-- A shut association stays shut as long as no packet of it is submitted. -/
theorem Shut.step {op : Op} (h : Shut associationId l)
    (hpacket : ∀ alloc packet, op = .submit alloc (.receivePacket packet) →
      packet.transport = .tcp → packet.associationId ≠ associationId) :
    Shut associationId (l.step pj (transportOwner env) op) ∧ NoDelivery associationId l.world.deeds
        (l.step pj (transportOwner env) op).world.deeds := by
  have hnil : ¬IsOpen associationId [] := List.not_mem_nil
  have hnone : ∀ t ∈ ([] : List (Tagged Command)), ¬IsPacketOf associationId t.item :=
    fun t ht => absurd ht List.not_mem_nil
  have hidle : ∀ started calls, Shut associationId ⟨started, l.pending, calls, l.world⟩ :=
    fun _ _ => ⟨h.noTransport, h.noPacket⟩
  cases op with
  | start =>
    simp only [Ledger.step, Ledger.start]
    split_ifs with hstarted hstatus
    · exact ⟨hidle _ _, NoDelivery.refl _ _⟩
    · exact ⟨⟨hnil, hnone⟩, NoDelivery.refl _ _⟩
    · simp only [transportOwner]
      split
      · refine ⟨⟨fun hopen => ?_, h.noPacket⟩, NoDelivery.refl _ _⟩
        rcases List.mem_cons.mp hopen with hudp | hold
        · cases hudp
        · exact h.noTransport hold
      · exact ⟨hidle _ _, NoDelivery.refl _ _⟩
  | stop =>
    simp only [Ledger.step, Ledger.stop]
    split_ifs
    · exact ⟨hidle _ _, NoDelivery.refl _ _⟩
    · exact ⟨⟨hnil, hnone⟩, NoDelivery.refl _ _⟩
  | poll =>
    simp only [Ledger.step, Ledger.poll]
    split_ifs
    · exact ⟨hidle _ _, NoDelivery.refl _ _⟩
    · obtain ⟨hshut, hquiet⟩ := shut_foldl env
        (fun t ht => h.noPacket t (mem_byKind.mp ht).2) h.noTransport
      exact ⟨⟨hshut, hnone⟩, hquiet⟩
  | submit alloc call =>
    simp only [Ledger.step, Ledger.submit]
    cases hcommand : call.command pj alloc l.started with
    | error refusal => exact ⟨hidle _ _, NoDelivery.refl _ _⟩
    | ok command =>
      refine ⟨⟨h.noTransport, fun t ht => ?_⟩, NoDelivery.refl _ _⟩
      rcases List.mem_append.mp ht with hold | hnew
      · exact h.noPacket t hold
      · rw [List.mem_singleton.mp hnew]
        exact not_isPacketOf_of_command pj hcommand
          fun packet hcall => hpacket alloc packet (hcall ▸ rfl)

/-- The ledger of a run. -/
def worldLedger (ops : List Op) : Ledger World :=
  ledger pj (transportOwner env) ⟨[], []⟩ ops

/-- The owner is in the world of the ledger. -/
theorem worldAfter_eq (ops : List Op) : worldAfter pj env ops = (worldLedger pj env ops).world :=
  (run_refines_ledger _ _).world

/-- A run may be cut anywhere. -/
theorem worldLedger_append (before after : List Op) : worldLedger pj env (before ++ after) =
      after.foldl (Ledger.step pj (transportOwner env)) (worldLedger pj env before) :=
  List.foldl_append ..

/-- **Every ledger is sound.** -/
theorem worldLedger_sound (ops : List Op) : Sound (worldLedger pj env ops) := by
  induction ops using List.reverseRecOn with
  | nil => exact ⟨unique_nil, fun _ => rfl⟩
  | append_singleton ops op ih =>
    rw [worldLedger_append]
    exact ih.step pj env op

/-- Without new packets a closed association stays closed. -/
theorem Shut.steps {ops : List Op} (h : Shut associationId l)
    (hpackets : NoPacket associationId ops) :
    Shut associationId (ops.foldl (Ledger.step pj (transportOwner env)) l) ∧
      NoDelivery associationId l.world.deeds
        (ops.foldl (Ledger.step pj (transportOwner env)) l).world.deeds := by
  induction ops generalizing l with
  | nil => exact ⟨h, NoDelivery.refl _ _⟩
  | cons op rest ih =>
    obtain ⟨hshut, hquiet⟩ := h.step pj env
      fun alloc packet hop => hpackets alloc packet (hop ▸ List.mem_cons_self)
    obtain ⟨hshut', hquiet'⟩ := ih hshut
      fun alloc packet hmem => hpackets alloc packet (List.mem_cons_of_mem _ hmem)
    exact ⟨hshut', hquiet.trans hquiet'⟩

/-- A poll that runs a close of an association leaves it shut. -/
theorem shut_of_runsClose {before : List Op} (h : RunsClose pj env before associationId) :
    Shut associationId (worldLedger pj env (before ++ [.poll])) := by
  obtain ⟨now, hnow, hclose⟩ := h
  rw [worldAfter_eq, worldAfter_eq, worldLedger_append] at hnow
  rw [worldLedger_append]
  simp only [List.foldl_cons, List.foldl_nil, Ledger.step, Ledger.poll] at hnow ⊢
  split_ifs at hnow ⊢ with hstarted
  · rw [List.append_cancel_left (hnow.symm.trans (List.append_nil _).symm)] at hclose
    exact absurd hclose List.not_mem_nil
  · obtain ⟨run, hrun, hcauses⟩ := foldl_deeds env (worldLedger pj env before).world
      (byKind pollOrder (worldLedger pj env before).pending)
    rw [List.append_cancel_left (hnow.symm.trans hrun)] at hclose
    obtain ⟨t, ht, hcommand⟩ := hcauses associationId hclose
    exact ⟨shut_poll env (worldLedger_sound pj env before).unique (mem_byKind.mp ht).2 hcommand,
      fun t ht => absurd ht List.not_mem_nil⟩

end

/-! ## The result -/

/-- **A closed association stays closed until a packet of it is submitted.** In every run there is at
most one transport for each TCP association and at most one for UDP. After a poll that ran a close of
a TCP association, the association has no transport, and no packet of it is delivered, if no packet
of it is submitted after that poll. -/
theorem associations_stay_closed (pj : Pjsip) (env : HandlerEnv) (ops : List Op) :
    Unique (worldAfter pj env ops).transports ∧
    ∀ before after associationId, ops = before ++ .poll :: after →
      RunsClose pj env before associationId → NoPacket associationId after →
        ¬IsOpen associationId (worldAfter pj env ops).transports ∧
        NoDelivery associationId (worldAfter pj env (before ++ [.poll])).deeds
          (worldAfter pj env ops).deeds := by
  refine ⟨worldAfter_eq pj env ops ▸ (worldLedger_sound pj env ops).unique, ?_⟩
  rintro before after associationId rfl hclose hpackets
  obtain ⟨hshut, hquiet⟩ := (shut_of_runsClose pj env hclose).steps pj env hpackets
  rw [← worldLedger_append, List.append_assoc, List.singleton_append] at hshut hquiet
  rw [worldAfter_eq, worldAfter_eq]
  exact ⟨hshut.noTransport, hquiet⟩

/-- A packet of a TCP association. -/
def samplePacket (associationId : ℕ) : Op :=
  .submit ⟨true, true⟩
    (.receivePacket ⟨88, 13, associationId, .tcp, .bytes [79], .bytes [49], 5060, .bytes [50], 40007⟩)

/-- A packet and a close of association 7 before one poll. -/
def packetThenClose : List Op :=
  [.start .success, samplePacket 7, .submit ⟨true, true⟩ (.closeTransport 7 .tcp .success)]

/-- Everything the handlers call succeeds. -/
def sampleHandlers : HandlerEnv := ⟨true, fun _ => .success, fun _ => .success⟩

/-- A packet of another association does not open it. -/
theorem associations_stay_closed_sample : ¬IsOpen 7 (worldAfter samplePjsip sampleHandlers
      (packetThenClose ++ [.poll, samplePacket 8, .poll])).transports := by
  have hnone : NoPacket 7 [samplePacket 8, .poll] := by
    intro alloc packet hmem _
    simp only [samplePacket, List.mem_cons, Op.submit.injEq, Submission.receivePacket.injEq,
      reduceCtorEq, List.not_mem_nil, or_false] at hmem
    rw [hmem.2]
    decide
  exact ((associations_stay_closed samplePjsip sampleHandlers _).2 packetThenClose
    [samplePacket 8, .poll] 7 rfl
    ⟨[.delivered .tcp 7, .ranClose .tcp 7], rfl, List.mem_cons_of_mem _ List.mem_cons_self⟩ hnone).1

/-- The next packet of a closed association opens it again and is delivered. -/
theorem association_reopens : RunsClose samplePjsip sampleHandlers packetThenClose 7 ∧
      IsOpen 7 (worldAfter samplePjsip sampleHandlers
        (packetThenClose ++ [.poll, samplePacket 7, .poll])).transports ∧
      (worldAfter samplePjsip sampleHandlers
        (packetThenClose ++ [.poll, samplePacket 7, .poll])).deeds =
          [.delivered .tcp 7, .ranClose .tcp 7, .delivered .tcp 7] :=
  ⟨⟨[.delivered .tcp 7, .ranClose .tcp 7], rfl, List.mem_cons_of_mem _ List.mem_cons_self⟩,
    List.mem_cons_self, rfl⟩

end GmvPjsip.Transport
