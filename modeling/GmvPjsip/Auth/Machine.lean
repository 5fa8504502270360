import GmvPjsip.Auth.Runtime

/-!
# Runs of the runtime

The runtime as a state machine: everything that can happen to it is an `Input`, and `run` is what a
list of inputs makes of a runtime that was just created.

* `Sys` is a runtime together with its `history`, the newest record first. A record says what
  happened to a REGISTER: it was answered at once, queued, or it left the queue by a completion, by
  a timeout or because the runtime stopped. The history is written and never read.
* `sweepPending` is the loop by which completions and timeouts take entries out of the list.
* A poll is the inputs `authCommands`, `authTimeouts` and `cleanup`; the other things a poll does
  do not touch this state, so the inputs may come in any order.
-/

namespace GmvPjsip.Auth

open GmvPjsip.Lib

/-! ## What happened -/

/-- How a single entry leaves the queue. -/
inductive Cause
  /-- By a completion. `env` is what it met outside the shim, and `verdict` the code its credentials
  called for, if the packet could be parsed again. -/
  | completed (command : AuthCommand) (env : CompleteEnv) (verdict : Option ℕ)
  | timedOut
  deriving DecidableEq, Repr

/-- One thing that happened. -/
inductive Record
  /-- A REGISTER was answered at once. -/
  | answered (rx : RxData) (actions : List Action)
  /-- A REGISTER was queued. -/
  | queued (p : PendingAuth) (rx : RxData) (actions : List Action)
  /-- A queued REGISTER was resolved. -/
  | left (p : PendingAuth) (cause : Cause) (actions : List Action)
  /-- A completion was processed: all its entries have left. -/
  | processed (command : AuthCommand)
  /-- The runtime was stopped with entries in the queue. -/
  | stopped (entries : List PendingAuth)
  deriving DecidableEq, Repr

/-- What stopping does to the transaction of an entry.
Source: `shim.c`, `gmv_runtime_release` -/
def releaseEntry (p : PendingAuth) : Action := .terminate p.transaction 503

/-- What the runtime did when this happened. -/
def Record.actions : Record → List Action
  | .answered _ actions => actions
  | .queued _ _ actions => actions
  | .left _ _ actions => actions
  | .processed _ => []
  | .stopped entries => entries.map releaseEntry

/-- A runtime with its history. -/
structure Sys where
  runtime : Runtime
  /-- The number of transactions PJSIP was asked for. -/
  transactions : ℕ
  history : List Record
  deriving DecidableEq, Repr

/-- What happened, the oldest record first. -/
def Sys.trace (s : Sys) : List Record := s.history.reverse

/-- A runtime that was just created.
Source: `shim.c`, `gmv_sip_runtime_create` -/
def Sys.init (config : Config) : Sys where
  runtime := {
    config := config
    started := false
    lastStatus := .success
    eventSequence := 0
    lookupSequence := 0
    nonceCleanupAtMs := 0
    pendingAuthCount := 0
    pendingAuth := []
    commands := []
    activeAuthCommand := none
    authNonces := []
    registeredSources := []
    registerOrders := [] }
  transactions := 0
  history := []

/-! ## What can happen -/

/-- Receive a REGISTER. Source: `shim_auth.inc`, `gmv_on_rx_request` -/
def receiveRegister (pj : Pjsip) (env : RegisterEnv) (s : Sys) (rx : RxData) : Sys :=
  let (rt, received) :=
    emitEvent s.runtime (registerEvent .requestReceived 0 .success rx 0 [] [])
  let (rt', queued, actions) := handleRegister pj env rt s.transactions rx
  let record := match queued with
    | some p => Record.queued p rx (received :: actions)
    | none => Record.answered rx (received :: actions)
  { runtime := rt', transactions := s.transactions + 1, history := record :: s.history }

/-- Unlink an entry: `pending` is the list without it. -/
def Sys.unlink (s : Sys) (pending : List PendingAuth) : Sys :=
  { s with runtime := { s.runtime with
    pendingAuth := pending
    pendingAuthCount := s.runtime.pendingAuthCount - 1 } }

/-- The loop over `pending_auth` that unlinks the entries that are due, one after the other.
`kept` is the part of the list behind the cursor, and `resolve` what is done with an entry once it
is unlinked.
Source: `shim_auth.inc`, `gmv_process_auth_command`, `gmv_process_auth_timeouts` -/
def sweepPending (due : PendingAuth → Bool) (resolve : Sys → PendingAuth → Sys) :
    List PendingAuth → List PendingAuth → Sys → Sys
  | _, [], s => s
  | kept, p :: rest, s =>
    if !due p then sweepPending due resolve (kept ++ [p]) rest s
    else sweepPending due resolve kept rest (resolve (s.unlink (kept ++ rest)) p)

/-- The code that the credentials of a completion call for, before the order is looked at. -/
def judgedCode (pj : Pjsip) (env : CompleteEnv) (rt : Runtime) (p : PendingAuth)
    (command : AuthCommand) : Option ℕ :=
  (rebuildPendingRdata pj p).map fun rx => (judge pj env rt rx.msg command).1.code

/-- Resolve an unlinked entry by a completion. -/
def resolveCompleted (pj : Pjsip) (env : ℕ → CompleteEnv) (command : AuthCommand) (s : Sys)
    (p : PendingAuth) : Sys :=
  let result := completePendingAuth pj (env p.transaction) s.runtime p command
  let verdict := judgedCode pj (env p.transaction) s.runtime p command
  { s with
    runtime := result.1
    history := .left p (.completed command (env p.transaction) verdict) result.2 :: s.history }

/-- Resolve an unlinked entry by its timeout. -/
def resolveTimedOut (pj : Pjsip) (env : ℕ → SendEnv) (s : Sys) (p : PendingAuth) : Sys :=
  let result := expirePendingAuth pj (env p.transaction) s.runtime p
  { s with runtime := result.1, history := .left p .timedOut result.2 :: s.history }

/-- Resolve every entry of a lookup.
Source: `shim_auth.inc`, `gmv_process_auth_command` -/
def processAuthCommand (pj : Pjsip) (env : ℕ → CompleteEnv) (s : Sys) (command : AuthCommand) :
    Sys :=
  let s' := sweepPending (fun p => decide (p.lookupId = command.lookupId))
    (resolveCompleted pj env command) [] s.runtime.pendingAuth s
  { s' with history := .processed command :: s'.history }

/-- Take the queued completions and process them in order.
Source: `shim_auth.inc`, `gmv_process_auth_commands` -/
def processAuthCommands (pj : Pjsip) (env : ℕ → CompleteEnv) (s : Sys) : Sys :=
  s.runtime.commands.foldl (processAuthCommand pj env)
    { s with runtime := { s.runtime with commands := [] } }

/-- Unlink expired nonces once a second.
Source: `shim_auth.inc`, `gmv_process_auth_timeouts` -/
def cleanupNonces (now purgeNow : ℕ) (rt : Runtime) : Runtime :=
  if rt.nonceCleanupAtMs ≤ now then { rt with
    authNonces := (nonceStatus purgeNow none false rt.authNonces).2
    nonceCleanupAtMs := u64 (now + 1000) }
  else rt

/-- Resolve every entry whose deadline has passed.
Source: `shim_auth.inc`, `gmv_process_auth_timeouts` -/
def processAuthTimeouts (pj : Pjsip) (now purgeNow : ℕ) (env : ℕ → SendEnv) (s : Sys) : Sys :=
  let s' := { s with runtime := cleanupNonces now purgeNow s.runtime }
  sweepPending (fun p => decide (p.deadlineMs ≤ now)) (resolveTimedOut pj env) []
    s'.runtime.pendingAuth s'

/-- Give everything up. Source: `shim.c`, `gmv_runtime_release` -/
def releaseRuntime (s : Sys) : Sys :=
  { s with
    runtime := { s.runtime with
      started := false
      pendingAuthCount := 0
      pendingAuth := []
      commands := []
      authNonces := []
      registeredSources := []
      registerOrders := [] }
    history := .stopped s.runtime.pendingAuth :: s.history }

/-- Source: `shim.c`, `gmv_sip_runtime_start`. `status` is what initialising PJSIP ends with. -/
def startRuntime (status : PjStatus) (s : Sys) : Sys :=
  if s.runtime.started then s
  else if status ≠ .success then
    let s' := { s with runtime := { s.runtime with lastStatus := status } }
    releaseRuntime s'
  else { s with runtime := { s.runtime with started := true, lastStatus := .success } }

/-- Source: `shim.c`, `gmv_sip_runtime_stop` -/
def stopRuntime (s : Sys) : Sys :=
  if !s.runtime.started then s
  else
    let s' := releaseRuntime s
    { s' with runtime := { s'.runtime with lastStatus := .success } }

/-- Put the lists of a grant call back into the runtime. -/
def withGrants (s : Sys) (grants : Grants) : Sys :=
  { s with runtime := { s.runtime with
    registeredSources := grants.sources
    registerOrders := grants.orders } }

/-- The lists a grant call works on. -/
def Sys.grants (s : Sys) : Grants := ⟨s.runtime.registeredSources, s.runtime.registerOrders⟩

/-- Everything that can happen to a runtime, with what PJSIP, the allocator and the clock do
meanwhile. -/
inductive Input
  | start (status : PjStatus)
  | stop
  /-- PJSIP delivers a packet. -/
  | packet (env : RegisterEnv) (origin : Origin) (packet : Bytes)
  /-- The application completes a lookup. -/
  | completeAuthLookup (callocOk : Bool) (completion : AuthLookupCompletion)
  | authCommands (env : ℕ → CompleteEnv)
  | authTimeouts (now purgeNow : ℕ) (env : ℕ → SendEnv)
  /-- `gmv_cleanup_recovery_sources`, in a poll or when a request arrives. -/
  | cleanup (now : ℕ)
  | allowRegisteredSource (env : GrantEnv) (args : SourceArgs)
  | allowRecoverySource (env : GrantEnv) (args : SourceArgs) (ttlMs : ℕ)
  | removeRegisteredSource (deviceId : StringView)

/-- One of the application's calls that grant or remove a source. -/
def Input.isSourceCall : Input → Bool
  | .allowRegisteredSource .. => true
  | .allowRecoverySource .. => true
  | .removeRegisteredSource .. => true
  | _ => false

/-- A call that a runtime refuses unless it was started. -/
def whenStarted (s s' : Sys) : Sys := if s.runtime.started then s' else s

/-- PJSIP delivers a packet to the shim if it parses it; other methods are not handled here.
Source: `shim_auth.inc`, `gmv_on_rx_request` -/
def receivePacket (pj : Pjsip) (env : RegisterEnv) (s : Sys) (origin : Origin) (packet : Bytes) :
    Sys :=
  match pj.parseRdata packet with
  | none => s
  | some msg =>
    if msg.method ≠ .register then s
    else receiveRegister pj env s ⟨origin, packet, msg⟩

/-- One input. -/
def step (pj : Pjsip) (s : Sys) : Input → Sys
  | .start status => startRuntime status s
  | .stop => stopRuntime s
  | .packet env origin packet => whenStarted s (receivePacket pj env s origin packet)
  | .completeAuthLookup callocOk completion =>
    { s with runtime := (completeAuthLookup pj callocOk s.runtime completion).2 }
  | .authCommands env => whenStarted s (processAuthCommands pj env s)
  | .authTimeouts now purgeNow env =>
    whenStarted s (processAuthTimeouts pj now purgeNow env s)
  | .cleanup now => whenStarted s (withGrants s
      (cleanupRecoverySources now s.runtime.registeredSources s.runtime.registerOrders))
  | .allowRegisteredSource env args =>
    whenStarted s (withGrants s (allowRegisteredSource env args s.grants).2)
  | .allowRecoverySource env args ttlMs =>
    whenStarted s (withGrants s (allowRecoverySource env args ttlMs s.grants).2)
  | .removeRegisteredSource deviceId =>
    whenStarted s (withGrants s (removeRegisteredSource deviceId s.grants).2)

/-- What a list of inputs makes of a new runtime. -/
def run (pj : Pjsip) (config : Config) (inputs : List Input) : Sys :=
  inputs.foldl (step pj) (Sys.init config)

end GmvPjsip.Auth
