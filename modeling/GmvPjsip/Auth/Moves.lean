import GmvPjsip.Auth.Spec
import Mathlib.Logic.Relation

/-!
# Runs as sequences of moves

The abstract machine over which the properties of whole runs are proved. Its state is a `Ledger`:
the core of a runtime, the number of transactions and the history. It moves in the nine ways of
`Move`, each of which says all that is known about it; `Edit` adds the changes of the orders that
the application's source calls make.

* `step_moves`, `step_edits`: every input of a runtime is a sequence of moves of its ledger, or of
  moves and edits (`Input.edits` are the lists of a source call or a sweep). So what the moves and
  edits preserve, every input preserves.
* `run_induction`: a property of ledgers that holds initially and is kept by moves and edits holds
  after every run.
-/

namespace GmvPjsip.Auth

open GmvPjsip.Lib Relation

/-- The state of the abstract machine. -/
structure Ledger where
  core : Core
  transactions : ℕ
  history : List Record

/-- The ledger of a runtime with its history. -/
def Sys.ledger (s : Sys) : Ledger := ⟨s.runtime.core, s.transactions, s.history⟩

/-- The core without an entry. -/
def Core.unlink (core : Core) (pending : List PendingAuth) : Core :=
  { core with pending := pending, count := core.count - 1 }

/-- What can happen to a ledger. -/
inductive Move (pj : Pjsip) : Ledger → Ledger → Prop
  /-- Some expired nonces go. -/
  | purge (a : Ledger) (now k : ℕ) :
      Move pj a { a with core := { a.core with nonces := purgeFront now k a.core.nonces } }
  /-- A REGISTER is answered on a transaction of its own. -/
  | answer (a : Ledger) (rx : RxData) (actions : List Action)
      (hquiet : ∀ action ∈ actions, action.Quiet a.transactions) :
      Move pj a {
        core := { a.core with nonces := issuedBy actions ++ a.core.nonces }
        transactions := a.transactions + 1
        history := .answered rx actions :: a.history }
  /-- A REGISTER enters the queue. -/
  | enter (a : Ledger) (rx : RxData) (p : PendingAuth) (actions : List Action) (core' : Core)
      (hstarted : a.core.started = true) (hparse : pj.parseRdata rx.packet = some rx.msg)
      (hadmitted : Admitted pj a.core.config rx p)
      (henters : Enters a.core a.transactions p actions core') :
      Move pj a {
        core := core'
        transactions := a.transactions + 1
        history := .queued p rx actions :: a.history }
  /-- A completion resolves an entry. -/
  | complete (a : Ledger) (env : CompleteEnv) (kept rest : List PendingAuth) (p : PendingAuth)
      (command : AuthCommand) (rx : RxData) (verdict : Verdict) (nonces : List AuthNonce)
      (status : PjStatus) (core' : Core) (actions : List Action)
      (hpending : a.core.pending = kept ++ p :: rest) (hid : p.lookupId = command.lookupId)
      (hcompletes : Completes pj env (a.core.unlink (kept ++ rest)) p command rx verdict nonces
        status core' actions) :
      Move pj a { a with
        core := core'
        history := .left p (.completed command env (some verdict.code)) actions :: a.history }
  /-- An entry that cannot be parsed again is terminated. -/
  | terminate (a : Ledger) (kept rest : List PendingAuth) (p : PendingAuth) (cause : Cause)
      (hpending : a.core.pending = kept ++ p :: rest)
      (hcause : ∀ command env code, cause ≠ .completed command env (some code)) :
      Move pj a { a with
        core := a.core.unlink (kept ++ rest)
        history := .left p cause [.terminate p.transaction 500] :: a.history }
  /-- An entry times out. -/
  | expire (a : Ledger) (kept rest : List PendingAuth) (p : PendingAuth) (status : PjStatus)
      (event : Event) (hpending : a.core.pending = kept ++ p :: rest)
      (hevent : event.eventType = .authRejected ∨ event.eventType = .runtimeFault) :
      Move pj a { a with
        core := a.core.unlink (kept ++ rest)
        history := .left p .timedOut
          [.respond (some p.transaction) 504 false false status, .emit event] :: a.history }
  /-- The last entry of a completion has left. -/
  | finish (a : Ledger) (command : AuthCommand)
      (hnone : ∀ p ∈ a.core.pending, p.lookupId ≠ command.lookupId) :
      Move pj a { a with history := .processed command :: a.history }
  /-- The runtime starts. -/
  | start (a : Ledger) : Move pj a { a with core := { a.core with started := true } }
  /-- The runtime gives everything up. -/
  | release (a : Ledger) :
      Move pj a { a with
        core := { a.core with
          started := false, pending := [], count := 0, nonces := [], sources := [], orders := [] }
        history := .stopped a.core.pending :: a.history }

/-- Sequences of moves. -/
abbrev Moves (pj : Pjsip) : Ledger → Ledger → Prop := ReflTransGen (Move pj)

/-- The core with the lists of a source call. -/
def Core.withGrants (core : Core) (grants : Grants) : Core :=
  { core with sources := grants.sources, orders := grants.orders }

/-- A move, or a change of the sources and orders by a source call. -/
inductive Edit (pj : Pjsip) : Ledger → Ledger → Prop
  | move {a b : Ledger} (h : Move pj a b) : Edit pj a b
  | grants (a : Ledger) (grants : Grants) :
      Edit pj a { a with core := a.core.withGrants grants }

variable {kept rest : List PendingAuth} {p : PendingAuth} {s : Sys} {input : Input}

/-- Unlinking an entry leaves entries that were there. -/
theorem unlinked_subset {pending : List PendingAuth}
    (h : pending = kept ++ p :: rest) : kept ++ rest ⊆ pending := by
  rw [h]
  exact ((List.sublist_cons_self p rest).append_left kept).subset

/-! ## Arrival -/

section arrival

variable {pj : Pjsip} {core core' : Core} {transaction : ℕ} {p : PendingAuth}
  {actions : List Action}

/-- The event that a request was received does not count as an announcement. -/
theorem Enters.received (h : Enters core transaction p actions core') {event : Event}
    (hevent : event.eventType = .requestReceived) :
    Enters core transaction p (.emit event :: actions) core' := by
  refine ⟨h.room, h.transaction, h.lookupId, h.core', ?_, ?_⟩
  · rw [← h.announced]
    simp [announcedBy, hevent]
  · intro action hmem
    rcases List.mem_cons.mp hmem with rfl | htail
    · exact ⟨event, rfl, Or.inr hevent⟩
    · exact h.actions action htail

theorem receiveRegister_moves (env : RegisterEnv) (s : Sys) (rx : RxData)
    (hstarted : s.runtime.started = true) (hparse : pj.parseRdata rx.packet = some rx.msg) :
    Moves pj s.ledger (receiveRegister pj env s rx).ledger := by
  unfold receiveRegister
  simp only
  set received := emitEvent s.runtime (registerEvent .requestReceived 0 .success rx 0 [] [])
    with hreceived
  have hcore : received.1.core = s.runtime.core := rfl
  obtain ⟨event, hevent, htype⟩ :
      ∃ event, received.2 = .emit event ∧ event.eventType = .requestReceived := ⟨_, rfl, rfl⟩
  obtain ⟨k, harrives⟩ := handleRegister_spec pj env received.1 s.transactions rx
  have hpurge : Move pj s.ledger _ := .purge s.ledger env.now k
  refine (ReflTransGen.single hpurge).tail ?_
  rcases harrives with
    ⟨rt', actions, hresult, hcore', hquiet⟩ | ⟨rt', p, actions, hresult, hadmitted, henters⟩
  · simp only [hresult]
    have hquiet' : ∀ action ∈ Action.emit event :: actions, action.Quiet s.transactions := by
      intro action hmem
      rcases List.mem_cons.mp hmem with rfl | htail
      · exact htype
      · exact hquiet action htail
    unfold Sys.ledger
    rw [hevent, hcore']
    exact Move.answer { s.ledger with core := { s.runtime.core with
      nonces := purgeFront env.now k s.runtime.authNonces } } rx _ hquiet'
  · simp only [hresult, hevent]
    exact Move.enter { s.ledger with core := { s.runtime.core with
        nonces := purgeFront env.now k s.runtime.authNonces } } rx p (.emit event :: actions)
      rt'.core hstarted hparse hadmitted (henters.received htype)

end arrival

/-! ## Leaving the queue -/

section leaving

variable {pj : Pjsip}

/-- Resolving an entry by a completion is a move, and leaves the rest of the queue. -/
theorem resolveCompleted_move (env : ℕ → CompleteEnv) (command : AuthCommand) (s : Sys)
    (hpending : s.runtime.pendingAuth = kept ++ p :: rest)
    (hid : p.lookupId = command.lookupId) :
    Move pj s.ledger (resolveCompleted pj env command (s.unlink (kept ++ rest)) p).ledger ∧
      (resolveCompleted pj env command (s.unlink (kept ++ rest)) p).runtime.pendingAuth =
        kept ++ rest := by
  have hcore : (s.unlink (kept ++ rest)).runtime.core = s.runtime.core.unlink (kept ++ rest) := rfl
  unfold resolveCompleted
  rcases completePendingAuth_spec pj (env p.transaction) (s.unlink (kept ++ rest)).runtime p
      command with
    ⟨rt', hresult, hcore', hnone⟩ |
    ⟨rx, verdict, nonces, status, rt', actions, hresult, hverdict, hcompletes⟩
  · rw [hcore] at hcore'
    have hverdict : judgedCode pj (env p.transaction) (s.unlink (kept ++ rest)).runtime p command =
        none := by
      rw [judgedCode, hnone, Option.map_none]
    simp only [hresult, hverdict]
    refine ⟨?_, congrArg Core.pending hcore'⟩
    unfold Sys.ledger
    rw [hcore']
    refine Move.terminate s.ledger kept rest p _ hpending ?_
    intro command env code heq
    cases heq
  · rw [hcore] at hcompletes
    simp only [hresult, hverdict]
    refine ⟨?_, congrArg Core.pending hcompletes.core'⟩
    exact Move.complete s.ledger (env p.transaction) kept rest p command rx verdict nonces status
      rt'.core actions hpending hid hcompletes

/-- Resolving an entry by its timeout is a move, and leaves the rest of the queue. -/
theorem resolveTimedOut_move (env : ℕ → SendEnv) (s : Sys)
    (hpending : s.runtime.pendingAuth = kept ++ p :: rest) :
    Move pj s.ledger (resolveTimedOut pj env (s.unlink (kept ++ rest)) p).ledger ∧
      (resolveTimedOut pj env (s.unlink (kept ++ rest)) p).runtime.pendingAuth = kept ++ rest := by
  have hcore : (s.unlink (kept ++ rest)).runtime.core = s.runtime.core.unlink (kept ++ rest) := rfl
  unfold resolveTimedOut
  obtain ⟨rt', actions, hresult, hcore', hactions⟩ :=
    expirePendingAuth_spec pj (env p.transaction) (s.unlink (kept ++ rest)).runtime p
  rw [hcore] at hcore'
  simp only [hresult]
  refine ⟨?_, congrArg Core.pending hcore'⟩
  unfold Sys.ledger
  rw [hcore']
  rcases hactions with rfl | ⟨status, event, rfl, hevent⟩
  · refine Move.terminate s.ledger kept rest p _ hpending ?_
    intro command env code heq
    cases heq
  · exact Move.expire s.ledger kept rest p status event hpending hevent

/-- The loop that unlinks the entries that are due is a sequence of moves, and leaves those that are
not due. -/
theorem sweepPending_moves {due : PendingAuth → Bool} {resolve : Sys → PendingAuth → Sys}
    (hresolve : ∀ (s : Sys) (kept rest : List PendingAuth) (p : PendingAuth),
      s.runtime.pendingAuth = kept ++ p :: rest → due p = true →
      Move pj s.ledger (resolve (s.unlink (kept ++ rest)) p).ledger ∧
        (resolve (s.unlink (kept ++ rest)) p).runtime.pendingAuth = kept ++ rest)
    (kept cursor : List PendingAuth) (s : Sys)
    (hpending : s.runtime.pendingAuth = kept ++ cursor) :
    Moves pj s.ledger (sweepPending due resolve kept cursor s).ledger ∧
      (sweepPending due resolve kept cursor s).runtime.pendingAuth =
        kept ++ cursor.filter fun p => !due p := by
  induction cursor generalizing kept s with
  | nil =>
    rw [sweepPending]
    exact ⟨ReflTransGen.refl, hpending⟩
  | cons p rest ih =>
    rw [sweepPending]
    by_cases hdue : due p = true
    · obtain ⟨hmove, hleft⟩ := hresolve s kept rest p hpending hdue
      obtain ⟨hmoves, hfinal⟩ := ih kept _ hleft
      simp only [hdue, Bool.not_true, Bool.false_eq_true, if_false, List.filter_cons]
      exact ⟨hmoves.head hmove, hfinal⟩
    · have hnext : s.runtime.pendingAuth = (kept ++ [p]) ++ rest := by
        rw [hpending, List.append_assoc]
        rfl
      obtain ⟨hmoves, hfinal⟩ := ih (kept ++ [p]) s hnext
      rw [List.append_assoc, List.singleton_append] at hfinal
      simp only [hdue, Bool.not_false, if_true, List.filter_cons]
      exact ⟨hmoves, hfinal⟩

theorem processAuthCommand_moves (env : ℕ → CompleteEnv) (s : Sys) (command : AuthCommand) :
    Moves pj s.ledger (processAuthCommand pj env s command).ledger := by
  unfold processAuthCommand
  obtain ⟨hmoves, hpending⟩ := sweepPending_moves (fun s kept rest p hp hdue =>
      resolveCompleted_move env command s hp (of_decide_eq_true hdue))
    [] s.runtime.pendingAuth s rfl
  refine hmoves.tail (Move.finish _ command ?_)
  intro p hp hid
  have hmem : p ∈ s.runtime.pendingAuth.filter
      fun p => !decide (p.lookupId = command.lookupId) := by
    rw [List.nil_append] at hpending
    rw [← hpending]
    exact hp
  simpa [hid] using List.of_mem_filter hmem

theorem processAuthCommands_moves (env : ℕ → CompleteEnv) (s : Sys) :
    Moves pj s.ledger (processAuthCommands pj env s).ledger := by
  unfold processAuthCommands
  have hfold : ∀ (commands : List AuthCommand) (s : Sys),
      Moves pj s.ledger (commands.foldl (processAuthCommand pj env) s).ledger := by
    intro commands
    induction commands with
    | nil => exact fun s => ReflTransGen.refl
    | cons command commands ih =>
      intro s
      exact (processAuthCommand_moves env s command).trans (ih _)
  exact hfold s.runtime.commands { s with runtime := { s.runtime with commands := [] } }

/-- What follows the sweep of the nonces. -/
theorem processAuthTimeouts_swept (now purgeNow : ℕ) (env : ℕ → SendEnv) (s : Sys) :
    Moves pj { s with runtime := cleanupNonces now purgeNow s.runtime : Sys }.ledger
      (processAuthTimeouts pj now purgeNow env s).ledger := by
  unfold processAuthTimeouts
  exact (sweepPending_moves (fun s kept rest p hp (_ : decide (p.deadlineMs ≤ now) = true) =>
      resolveTimedOut_move env s hp)
    [] _ { s with runtime := cleanupNonces now purgeNow s.runtime } rfl).1

theorem processAuthTimeouts_moves (now purgeNow : ℕ) (env : ℕ → SendEnv) (s : Sys) :
    Moves pj s.ledger (processAuthTimeouts pj now purgeNow env s).ledger := by
  refine ReflTransGen.trans ?_ (processAuthTimeouts_swept now purgeNow env s)
  unfold cleanupNonces
  by_cases hdue : s.runtime.nonceCleanupAtMs ≤ now
  · obtain ⟨k, hpurge⟩ := nonceStatus_snd purgeNow none false s.runtime.authNonces
    rw [if_pos hdue, hpurge]
    exact ReflTransGen.single (Move.purge s.ledger purgeNow k)
  · rw [if_neg hdue]

end leaving

/-! ## Inputs -/

section inputs

variable {pj : Pjsip}

theorem whenStarted_ledger {r : Ledger → Ledger → Prop} {s' : Sys}
    (h : s.runtime.started = true → ReflTransGen r s.ledger s'.ledger) :
    ReflTransGen r s.ledger (whenStarted s s').ledger := by
  unfold whenStarted
  by_cases hstarted : s.runtime.started = true
  · rw [if_pos hstarted]
    exact h hstarted
  · rw [if_neg hstarted]

theorem startRuntime_moves (status : PjStatus) (s : Sys) :
    Moves pj s.ledger (startRuntime status s).ledger := by
  unfold startRuntime
  by_cases hstarted : s.runtime.started = true
  · rw [if_pos hstarted]
  · rw [if_neg hstarted]
    by_cases hstatus : status = .success
    · rw [if_neg (not_not.mpr hstatus)]
      exact ReflTransGen.single (Move.start s.ledger)
    · rw [if_pos hstatus]
      exact ReflTransGen.single (Move.release s.ledger)

theorem stopRuntime_moves (s : Sys) : Moves pj s.ledger (stopRuntime s).ledger := by
  unfold stopRuntime
  by_cases hstarted : s.runtime.started = true
  · simp only [hstarted, Bool.not_true, Bool.false_eq_true, if_false]
    exact ReflTransGen.single (Move.release s.ledger)
  · simp only [hstarted, Bool.not_false, if_true]
    exact ReflTransGen.refl

theorem receivePacket_moves (env : RegisterEnv) (s : Sys) (origin : Origin) (packet : Bytes)
    (hstarted : s.runtime.started = true) :
    Moves pj s.ledger (receivePacket pj env s origin packet).ledger := by
  unfold receivePacket
  rcases hparse : pj.parseRdata packet with _ | msg
  · exact ReflTransGen.refl
  · simp only
    by_cases hmethod : msg.method = .register
    · rw [if_neg (not_not.mpr hmethod)]
      exact receiveRegister_moves env s ⟨origin, packet, msg⟩ hstarted hparse
    · rw [if_pos hmethod]

theorem completeAuthLookup_core (callocOk : Bool) (rt : Runtime) (completion : AuthLookupCompletion) :
    (completeAuthLookup pj callocOk rt completion).2.core = rt.core := by
  unfold completeAuthLookup
  split
  · rfl
  · split <;> rfl

/-- The lists behind an input that is a source call or a sweep. -/
def Input.edits (grants : Grants) : Input → Option Grants
  | .cleanup now => some (cleanupRecoverySources now grants.sources grants.orders)
  | .allowRegisteredSource env args => some (Auth.allowRegisteredSource env args grants).2
  | .allowRecoverySource env args ttlMs => some (Auth.allowRecoverySource env args ttlMs grants).2
  | .removeRegisteredSource deviceId => some (Auth.removeRegisteredSource deviceId grants).2
  | _ => none

/-- **Refinement.** An input that is neither a source call nor a sweep is a sequence of moves. -/
theorem step_moves_of_none (h : input.edits s.grants = none) :
    Moves pj s.ledger (step pj s input).ledger := by
  cases input with
  | start status => exact startRuntime_moves status s
  | stop => exact stopRuntime_moves s
  | packet env origin packet => exact whenStarted_ledger (receivePacket_moves env s origin packet)
  | completeAuthLookup =>
    unfold step Sys.ledger
    simp only
    rw [completeAuthLookup_core]
  | authCommands env => exact whenStarted_ledger (fun _ => processAuthCommands_moves env s)
  | authTimeouts now purgeNow env =>
    exact whenStarted_ledger (fun _ => processAuthTimeouts_moves now purgeNow env s)
  | cleanup | allowRegisteredSource | allowRecoverySource | removeRegisteredSource => cases h

/-- A source call or a sweep puts its lists into a runtime that was started. -/
theorem step_of_edits {grants : Grants} (h : input.edits s.grants = some grants) :
    step pj s input = whenStarted s (withGrants s grants) := by
  cases input with
  | cleanup | allowRegisteredSource | allowRecoverySource | removeRegisteredSource =>
    rw [← Option.some.inj h]
    rfl
  | start | stop | packet | completeAuthLookup | authCommands | authTimeouts => cases h

/-- **Refinement.** An input that is no source call is a sequence of moves, as long as the runtime
has no sources whose grants could expire. -/
theorem step_moves (hinput : input.isSourceCall = false)
    (hsources : s.runtime.registeredSources = []) :
    Moves pj s.ledger (step pj s input).ledger := by
  cases input with
  | cleanup now =>
    refine whenStarted_ledger fun _ => ?_
    have hsame : (withGrants s (cleanupRecoverySources now s.runtime.registeredSources
        s.runtime.registerOrders)).ledger = s.ledger := by
      rw [hsources, cleanupRecoverySources_nil]
      unfold withGrants Sys.ledger Runtime.core
      simp only [hsources]
    rw [hsame]
  | allowRegisteredSource | allowRecoverySource | removeRegisteredSource => cases hinput
  | start | stop | packet | completeAuthLookup | authCommands | authTimeouts =>
    exact step_moves_of_none rfl

/-- **Refinement.** Every input is a sequence of moves and edits. -/
theorem step_edits (s : Sys) (input : Input) :
    ReflTransGen (Edit pj) s.ledger (step pj s input).ledger := by
  rcases hedits : input.edits s.grants with _ | grants
  · exact ReflTransGen.mono (fun _ _ hmove => Edit.move hmove) _ _ (step_moves_of_none hedits)
  · rw [step_of_edits hedits]
    exact whenStarted_ledger fun _ => ReflTransGen.single (Edit.grants s.ledger grants)

/-- So is every list of inputs. -/
theorem inputs_edits (inputs : List Input) (s : Sys) :
    ReflTransGen (Edit pj) s.ledger (inputs.foldl (step pj) s).ledger := by
  induction inputs generalizing s with
  | nil => exact ReflTransGen.refl
  | cons input inputs ih => exact (step_edits s input).trans (ih (step pj s input))

theorem run_append (config : Config) (before after : List Input) :
    run pj config (before ++ after) = after.foldl (step pj) (run pj config before) :=
  List.foldl_append

end inputs

/-! ## Runs -/

section runs

variable {pj : Pjsip} {config : Config} {P : Ledger → Prop}

/-- What every step keeps, a sequence of steps keeps. -/
theorem preserved {r : Ledger → Ledger → Prop} (hstep : ∀ a b, r a b → P a → P b) {a b : Ledger}
    (h : ReflTransGen r a b) (ha : P a) : P b := by
  induction h with
  | refl => exact ha
  | tail _ hlast ih => exact hstep _ _ hlast ih

/-- **Induction over runs.** What holds of a new runtime and is kept by every move and by source
calls holds after every run. -/
theorem run_induction (hinit : P (Sys.init config).ledger) (hmove : ∀ a b, Move pj a b → P a → P b)
    (hgrants : ∀ (a : Ledger) grants, P a → P { a with core := a.core.withGrants grants })
    (inputs : List Input) : P (run pj config inputs).ledger := by
  have hedit : ∀ a b, Edit pj a b → P a → P b := by
    intro a b h ha
    cases h with
    | move h => exact hmove a b h ha
    | grants grants => exact hgrants a grants ha
  exact preserved hedit (inputs_edits inputs (Sys.init config)) hinit

/-- **Induction over runs without source calls.** -/
theorem run_induction_of_no_source (hinit : P (Sys.init config).ledger)
    (hmove : ∀ a b, Move pj a b → P a → P b) (hsources : ∀ a, P a → a.core.sources = [])
    (inputs : List Input) (hinputs : ∀ input ∈ inputs, input.isSourceCall = false) :
    P (run pj config inputs).ledger := by
  have hfold : ∀ (inputs : List Input) (s : Sys),
      (∀ input ∈ inputs, input.isSourceCall = false) → P s.ledger →
      P (inputs.foldl (step pj) s).ledger := by
    intro inputs
    induction inputs with
    | nil => exact fun s _ hs => hs
    | cons input inputs ih =>
      intro s hin hs
      have hstep : Moves pj _ _ := step_moves (hin input List.mem_cons_self) (hsources _ hs)
      exact ih (step pj s input) (fun i hi => hin i (List.mem_cons_of_mem input hi))
        (preserved hmove hstep hs)
  exact hfold inputs (Sys.init config) hinputs hinit

end runs

end GmvPjsip.Auth
