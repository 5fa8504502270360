import GmvPjsip.Auth.Machine

/-!
# What a run queues, its inputs delivered

The history of a run names the packet of every REGISTER that was queued. None of them is made up: each
is a packet that an input delivered, so a condition on the inputs is one on all that was queued.

* `Input.delivers`, `queuedPackets`: the packet of an input, and the packets that a history queued.
* `step_queuedPackets`: a step queues at most the packet of its input. Taking entries out of the queue
  queues nothing (`sweepPending_queuedPackets`).
* `run_queuedPackets`: the same for every run.
-/

namespace GmvPjsip.Auth

/-! ## Packets -/

/-- The packet that an input delivers. -/
def Input.delivers : Input → Option Bytes
  | .packet _ _ data => some data
  | _ => none

/-- The packet of the REGISTER that a record queued. -/
def Record.queuedPacket : Record → Option Bytes
  | .queued _ rx _ => some rx.packet
  | _ => none

/-- The packets of the REGISTERs that were queued. -/
def queuedPackets (history : List Record) : List Bytes := history.filterMap Record.queuedPacket

/-! ## Steps and runs -/

section arrivals

variable {pj : Pjsip}

/-- Taking entries out of the queue queues nothing. -/
theorem sweepPending_queuedPackets {due : PendingAuth → Bool} {resolve : Sys → PendingAuth → Sys}
    (hresolve : ∀ (s : Sys) (p : PendingAuth) (pending : List PendingAuth),
      queuedPackets (resolve (s.unlink pending) p).history = queuedPackets s.history)
    (kept cursor : List PendingAuth) (s : Sys) :
    queuedPackets (sweepPending due resolve kept cursor s).history = queuedPackets s.history := by
  induction cursor generalizing kept s with
  | nil => rfl
  | cons p rest ih =>
    rw [sweepPending]
    split_ifs
    · exact ih (kept ++ [p]) s
    · exact (ih kept _).trans (hresolve s p (kept ++ rest))

theorem processAuthCommands_queuedPackets (env : ℕ → CompleteEnv) (s : Sys) :
    queuedPackets (processAuthCommands pj env s).history = queuedPackets s.history := by
  unfold processAuthCommands
  have hfold : ∀ (commands : List AuthCommand) (s : Sys),
      queuedPackets (commands.foldl (processAuthCommand pj env) s).history =
        queuedPackets s.history := by
    intro commands
    induction commands with
    | nil => exact fun s => rfl
    | cons command commands ih =>
      intro s
      refine (ih _).trans ?_
      exact sweepPending_queuedPackets (fun _ _ _ => rfl) [] s.runtime.pendingAuth s
  exact hfold s.runtime.commands { s with runtime := { s.runtime with commands := [] } }

theorem processAuthTimeouts_queuedPackets (now purgeNow : ℕ) (env : ℕ → SendEnv) (s : Sys) :
    queuedPackets (processAuthTimeouts pj now purgeNow env s).history = queuedPackets s.history :=
  sweepPending_queuedPackets (fun _ _ _ => rfl) [] _
    { s with runtime := cleanupNonces now purgeNow s.runtime }

theorem receivePacket_queuedPackets (env : RegisterEnv) (s : Sys) (origin : Origin) (packet : Bytes) :
    queuedPackets (receivePacket pj env s origin packet).history ⊆
      packet :: queuedPackets s.history := by
  unfold receivePacket
  rcases pj.parseRdata packet with _ | msg
  · exact List.subset_cons_self _ _
  · simp only
    split_ifs
    · exact List.subset_cons_self _ _
    · unfold receiveRegister
      simp only
      rcases (handleRegister pj env _ s.transactions ⟨origin, packet, msg⟩).2.1 with _ | p
      · exact List.subset_cons_self _ _
      · exact List.Subset.refl _

/-- What a step queues, its input delivered. -/
theorem step_queuedPackets (s : Sys) (input : Input) :
    queuedPackets (step pj s input).history ⊆ input.delivers.toList ++ queuedPackets s.history := by
  have hwhen : ∀ {s' : Sys} {packets : List Bytes}, queuedPackets s.history ⊆ packets →
      queuedPackets s'.history ⊆ packets → queuedPackets (whenStarted s s').history ⊆ packets := by
    intro s' packets hs hs'
    unfold whenStarted
    split_ifs
    · exact hs'
    · exact hs
  cases input with
  | packet env origin packet =>
    exact hwhen (List.subset_cons_self _ _) (receivePacket_queuedPackets env s origin packet)
  | authCommands =>
    refine hwhen (List.Subset.refl _) ?_
    rw [processAuthCommands_queuedPackets]
    exact List.Subset.refl _
  | authTimeouts =>
    refine hwhen (List.Subset.refl _) ?_
    rw [processAuthTimeouts_queuedPackets]
    exact List.Subset.refl _
  | start status =>
    show queuedPackets (startRuntime status s).history ⊆ queuedPackets s.history
    unfold startRuntime
    split_ifs
    · exact List.Subset.refl _
    · exact List.Subset.refl _
    · exact List.Subset.refl _
  | stop =>
    show queuedPackets (stopRuntime s).history ⊆ queuedPackets s.history
    unfold stopRuntime
    split_ifs
    · exact List.Subset.refl _
    · exact List.Subset.refl _
  | completeAuthLookup => exact List.Subset.refl _
  | cleanup | allowRegisteredSource | allowRecoverySource | removeRegisteredSource =>
    exact hwhen (List.Subset.refl _) (List.Subset.refl _)

/-- What a run queues, its inputs delivered. -/
theorem run_queuedPackets (config : Config) (inputs : List Input) :
    queuedPackets (run pj config inputs).history ⊆ inputs.filterMap Input.delivers := by
  have hfold : ∀ (inputs : List Input) (s : Sys), ∀ packet ∈
      queuedPackets (inputs.foldl (step pj) s).history,
      packet ∈ inputs.filterMap Input.delivers ∨ packet ∈ queuedPackets s.history := by
    intro inputs
    induction inputs with
    | nil => exact fun s packet hpacket => Or.inr hpacket
    | cons input inputs ih =>
      intro s packet hpacket
      rw [List.filterMap_cons]
      rcases ih (step pj s input) packet hpacket with hlater | hearlier
      · refine Or.inl ?_
        split
        · exact hlater
        · exact List.mem_cons_of_mem _ hlater
      · rcases List.mem_append.mp (step_queuedPackets s input hearlier) with hnew | hold
        · refine Or.inl ?_
          rw [Option.mem_toList] at hnew
          rw [hnew]
          exact List.mem_cons_self
        · exact Or.inr hold
  intro packet hpacket
  rcases hfold inputs (Sys.init config) packet hpacket with hmem | hnone
  · exact hmem
  · cases hnone

end arrivals

end GmvPjsip.Auth
