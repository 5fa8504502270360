import GmvPjsip.Auth.Resolution
import GmvPjsip.Auth.Server

/-!
# One lookup for a device at a time

REGISTERs of a device that wait at the same time share one credential lookup.

* `announced`: the ids of the lookups that a history announced.
* `existingLookup_eq_zero`, `existingLookup_ne_zero`: what the search for a lookup under way finds.
* `Coalesced` is the invariant, for histories with fewer than `2 ^ 64` lookups. `Joins` says which id
  a REGISTER is queued with: a new one, or that of an entry in the queue.
* `lookups_coalesced`: the same for every run. `lookupId_reused` shows that the bound is needed: the
  sequence of ids is a `uint64_t`, and after `2 ^ 64` lookups it starts over.
-/

namespace GmvPjsip.Auth

open GmvPjsip.Lib

/-- The ids of the lookups that were announced, the newest first. -/
def announced (history : List Record) : List ℕ := history.flatMap fun r => announcedBy r.actions

@[simp] theorem announced_cons (r : Record) (history : List Record) :
    announced (r :: history) = announcedBy r.actions ++ announced history := rfl

/-! ## What announces nothing -/

theorem announcedBy_eq_nil {actions : List Action}
    (h : ∀ event, .emit event ∈ actions → event.eventType ≠ .authLookupRequired) :
    announcedBy actions = [] := by
  unfold announcedBy
  rw [List.filterMap_eq_nil_iff]
  intro action hmem
  cases action with
  | emit event => exact if_neg (h event hmem)
  | issued | respond | terminate => rfl

theorem announcedBy_of_quiet {transaction : ℕ} {actions : List Action}
    (h : ∀ action ∈ actions, action.Quiet transaction) : announcedBy actions = [] := by
  apply announcedBy_eq_nil
  intro event hmem htype
  have hreceived : event.eventType = .requestReceived := h _ hmem
  rw [hreceived] at htype
  cases htype

theorem announcedBy_of_completes {pj : Pjsip} {env : CompleteEnv} {core core' : Core}
    {p : PendingAuth} {command : AuthCommand} {rx : RxData} {verdict : Verdict}
    {nonces : List AuthNonce} {status : PjStatus} {actions : List Action}
    (h : Completes pj env core p command rx verdict nonces status core' actions) :
    announcedBy actions = [] := by
  obtain ⟨issue, events, rfl, hissue, hreports⟩ := h.actions
  apply announcedBy_eq_nil
  intro event hmem
  rcases List.mem_append.mp hmem with hleft | hright
  · obtain ⟨value, now, heq⟩ := hissue _ hleft
    cases heq
  · rcases List.mem_cons.mp hright with heq | hevent
    · cases heq
    · obtain ⟨event', heq, hne⟩ := hreports.emits _ hevent
      obtain rfl := Action.emit.inj heq
      exact hne

/-! ## The lookup under way -/

section existing

variable {pending : List PendingAuth} {deviceId realm : Bytes}

/-- A lookup that is found is that of an entry for the same device and realm. -/
theorem existingLookup_ne_zero (h : existingLookup pending deviceId realm ≠ 0) :
    ∃ q ∈ pending, q.deviceId = deviceId ∧ q.realm = realm ∧
      q.lookupId = existingLookup pending deviceId realm := by
  unfold existingLookup at h ⊢
  rcases hfind : pending.find? fun entry => entry.deviceId = deviceId ∧ entry.realm = realm with
    _ | q
  · simp only [hfind] at h
    exact absurd rfl h
  · have hq := List.find?_some hfind
    rw [decide_eq_true_iff] at hq
    simp only [hfind]
    exact ⟨q, List.mem_of_find?_eq_some hfind, hq.1, hq.2, rfl⟩

/-- Where no lookup is found, no entry is for the device and realm, as ids are not 0. -/
theorem existingLookup_eq_zero (hpos : ∀ q ∈ pending, 0 < q.lookupId)
    (h : existingLookup pending deviceId realm = 0) :
    ∀ q ∈ pending, ¬ (q.deviceId = deviceId ∧ q.realm = realm) := by
  unfold existingLookup at h
  rcases hfind : pending.find? fun entry => entry.deviceId = deviceId ∧ entry.realm = realm with
    _ | q
  · intro q hq
    simpa using List.find?_eq_none.mp hfind q hq
  · simp only [hfind] at h
    exact absurd h (Nat.ne_of_gt (hpos q (List.mem_of_find?_eq_some hfind)))

end existing

/-! ## The invariant -/

/-- The id a REGISTER is queued with, given what happened before: it is new and announced, or it is
that of an entry for the same device and realm that is still in the queue. -/
def Joins (older : List Record) (p : PendingAuth) (actions : List Action) : Prop :=
  (announcedBy actions = [p.lookupId] ∧ p.lookupId ∉ announced older) ∨
    (announcedBy actions = [] ∧ ∃ q ∈ entered older, q ∉ leaves older ∧
      q.deviceId = p.deviceId ∧ q.realm = p.realm ∧ q.lookupId = p.lookupId)

/-- What holds of the queue, the sequence of ids and the history at any time. -/
structure Coalesced (a : Ledger) : Prop where
  lookups : a.core.lookups = (announced a.history).length
  range : ∀ id ∈ announced a.history, 0 < id ∧ id ≤ a.core.lookups
  nodup : (announced a.history).Nodup
  used : ∀ p ∈ entered a.history, p.lookupId ∈ announced a.history
  device : ∀ p ∈ entered a.history, ∀ q ∈ entered a.history, p.lookupId = q.lookupId →
    p.deviceId = q.deviceId ∧ p.realm = q.realm
  shared : ∀ p ∈ a.core.pending, ∀ q ∈ a.core.pending,
    p.deviceId = q.deviceId ∧ p.realm = q.realm → p.lookupId = q.lookupId
  joins : ∀ newer p rx actions older, a.history = newer ++ .queued p rx actions :: older →
    Joins older p actions
  done : ∀ newer command older, a.history = newer ++ .processed command :: older →
    command.lookupId ∈ announced older →
    (∀ p ∈ a.core.pending, p.lookupId ≠ command.lookupId) ∧
      ∀ p ∈ entered newer, p.lookupId ≠ command.lookupId

namespace Coalesced

variable {a : Ledger}

/-- A record that announces nothing and queues nothing. -/
theorem quiet (h : Coalesced a) {core' : Core} {transactions' : ℕ} {r : Record}
    (hlookups : core'.lookups = a.core.lookups) (hpending : core'.pending ⊆ a.core.pending)
    (henters : r.enters = []) (hannounced : announcedBy r.actions = [])
    (hdone : ∀ command, r = .processed command → ∀ p ∈ core'.pending, p.lookupId ≠ command.lookupId) :
    Coalesced ⟨core', transactions', r :: a.history⟩ := by
  have hsame : announced (r :: a.history) = announced a.history := by
    rw [announced_cons, hannounced, List.nil_append]
  have hentered : entered (r :: a.history) = entered a.history := by
    rw [entered_cons, henters, List.nil_append]
  constructor
  · rw [hsame, hlookups]
    exact h.lookups
  · rw [hsame, hlookups]
    exact h.range
  · rw [hsame]
    exact h.nodup
  · simp only [hsame, hentered]
    exact h.used
  · simp only [hentered]
    exact h.device
  · exact fun p hp q hq => h.shared p (hpending hp) q (hpending hq)
  · intro newer p rx actions older hsplit
    cases newer with
    | nil =>
      obtain ⟨rfl, -⟩ := List.cons.inj hsplit
      cases henters
    | cons s newer => exact h.joins newer p rx actions older (List.cons.inj hsplit).2
  · intro newer command older hsplit hmem
    cases newer with
    | nil =>
      obtain ⟨rfl, rfl⟩ := List.cons.inj hsplit
      exact ⟨hdone command rfl, fun p hp => absurd hp List.not_mem_nil⟩
    | cons s newer =>
      obtain ⟨rfl, htail⟩ := List.cons.inj hsplit
      obtain ⟨hleft, hnewer⟩ := h.done newer command older htail hmem
      refine ⟨fun p hp => hleft p (hpending hp), ?_⟩
      rw [entered_cons, henters, List.nil_append]
      exact hnewer

/-- What the id of a new entry has to do with the ids before it. -/
structure TakesId (a : Ledger) (p : PendingAuth) (actions : List Action) (last : ℕ) : Prop where
  lookups : last = (announcedBy actions ++ announced a.history).length
  range : ∀ id ∈ announcedBy actions ++ announced a.history, 0 < id ∧ id ≤ last
  nodup : (announcedBy actions ++ announced a.history).Nodup
  used : p.lookupId ∈ announcedBy actions ++ announced a.history
  joins : Joins a.history p actions
  device : ∀ q ∈ entered a.history, p.lookupId = q.lookupId →
    p.deviceId = q.deviceId ∧ p.realm = q.realm
  shared : ∀ q ∈ a.core.pending, p.deviceId = q.deviceId ∧ p.realm = q.realm → p.lookupId = q.lookupId
  fresh : ∀ id ∈ announced a.history, (∀ q ∈ a.core.pending, q.lookupId ≠ id) → p.lookupId ≠ id

section enter

variable {config : Config} {core' : Core} {p : PendingAuth} {rx : RxData} {actions : List Action}

/-- A new lookup takes the next id, which is larger than every id before it. -/
theorem announces (hresolved : Resolved config a) (h : Coalesced a)
    (henters : Enters a.core a.transactions p actions core')
    (hbound : (announcedBy actions ++ announced a.history).length < 2 ^ 64)
    (hnone : existingLookup a.core.pending p.deviceId p.realm = 0) :
    TakesId a p actions core'.lookups := by
  have hids := henters.announced
  have hid := henters.lookupId
  have hlookups : core'.lookups = u64 (a.core.lookups + 1) := by
    rw [henters.core', hnone]
    rfl
  rw [if_neg (not_not.mpr hnone)] at hids hid
  have hnew : u64 (a.core.lookups + 1) = a.core.lookups + 1 := by
    rw [hids, List.singleton_append, List.length_cons, ← h.lookups] at hbound
    exact u64_of_lt hbound
  rw [hnew] at hid hlookups
  have hlarger : ∀ id ∈ announced a.history, p.lookupId ≠ id := by
    intro id hmem heq
    have hle := (h.range id hmem).2
    rw [← heq, hid] at hle
    exact absurd hle (Nat.not_succ_le_self _)
  have hfresh : p.lookupId ∉ announced a.history := fun hmem => hlarger _ hmem rfl
  constructor
  · rw [hids, hlookups, List.singleton_append, List.length_cons, h.lookups]
  · rw [hids, hlookups]
    intro id hmem
    rcases List.mem_cons.mp hmem with rfl | hold
    · rw [hid]
      exact ⟨Nat.succ_pos _, Nat.le_refl _⟩
    · exact ⟨(h.range id hold).1, Nat.le_succ_of_le (h.range id hold).2⟩
  · rw [hids]
    exact List.nodup_cons.mpr ⟨hfresh, h.nodup⟩
  · rw [hids]
    exact List.mem_cons_self
  · exact Or.inl ⟨hids, hfresh⟩
  · exact fun q hq heq => absurd heq (hlarger _ (h.used q hq))
  · intro q hq hsame
    have hpos : ∀ q ∈ a.core.pending, 0 < q.lookupId := fun q hq =>
      (h.range _ (h.used q (hresolved.mem_entered hq))).1
    exact absurd (hsame.imp Eq.symm Eq.symm) (existingLookup_eq_zero hpos hnone q hq)
  · exact fun id hmem _ => hlarger id hmem

/-- An entry that joins the lookup under way takes its id. -/
theorem joinsExisting (hresolved : Resolved config a) (h : Coalesced a)
    (henters : Enters a.core a.transactions p actions core')
    (hsome : existingLookup a.core.pending p.deviceId p.realm ≠ 0) :
    TakesId a p actions core'.lookups := by
  have hids := henters.announced
  have hid := henters.lookupId
  have hlookups : core'.lookups = a.core.lookups := by
    rw [henters.core']
    exact if_pos hsome
  rw [if_pos hsome] at hids hid
  obtain ⟨q, hq, hdevice, hrealm, hqid⟩ := existingLookup_ne_zero hsome
  rw [← hid] at hqid
  have hentered := hresolved.mem_entered hq
  constructor
  · rw [hids, hlookups]
    exact h.lookups
  · rw [hids, hlookups]
    exact h.range
  · rw [hids]
    exact h.nodup
  · rw [hids, ← hqid]
    exact h.used q hentered
  · exact Or.inr ⟨hids, q, hentered, hresolved.not_mem_leaves hq, hdevice, hrealm, hqid⟩
  · intro q' hq' heq
    rw [← hdevice, ← hrealm]
    exact h.device q hentered q' hq' (hqid.trans heq)
  · intro q' hq' hsame
    rw [← hdevice, ← hrealm] at hsame
    exact hqid.symm.trans (h.shared q hq q' hq' hsame)
  · intro id _ hleft
    rw [← hqid]
    exact hleft q hq

/-- A REGISTER is queued. -/
theorem enter (hresolved : Resolved config a) (h : Coalesced a)
    (henters : Enters a.core a.transactions p actions core')
    (hbound : (announced (.queued p rx actions :: a.history)).length < 2 ^ 64) :
    Coalesced ⟨core', a.transactions + 1, .queued p rx actions :: a.history⟩ := by
  have hpending : core'.pending = p :: a.core.pending := by rw [henters.core']
  obtain ⟨hlookups, hrange, hnodup, hused, hjoins, hdevice, hshared, hfresh⟩ :
      TakesId a p actions core'.lookups := by
    by_cases hnone : existingLookup a.core.pending p.deviceId p.realm = 0
    · exact h.announces hresolved henters hbound hnone
    · exact h.joinsExisting hresolved henters hnone
  constructor
  · exact hlookups
  · exact hrange
  · exact hnodup
  · intro q hq
    rcases List.mem_cons.mp hq with rfl | hold
    · exact hused
    · exact List.mem_append_right _ (h.used q hold)
  · intro q hq q' hq' heq
    rcases List.mem_cons.mp hq with rfl | hold
    · rcases List.mem_cons.mp hq' with rfl | hold'
      · exact ⟨rfl, rfl⟩
      · exact hdevice q' hold' heq
    · rcases List.mem_cons.mp hq' with rfl | hold'
      · exact (hdevice q hold heq.symm).imp Eq.symm Eq.symm
      · exact h.device q hold q' hold' heq
  · simp only [hpending]
    intro q hq q' hq' hsame
    rcases List.mem_cons.mp hq with rfl | hold
    · rcases List.mem_cons.mp hq' with rfl | hold'
      · rfl
      · exact hshared q' hold' hsame
    · rcases List.mem_cons.mp hq' with rfl | hold'
      · exact (hshared q hold (hsame.imp Eq.symm Eq.symm)).symm
      · exact h.shared q hold q' hold' hsame
  · intro newer p' rx' actions' older hsplit
    cases newer with
    | nil =>
      obtain ⟨heq, rfl⟩ := List.cons.inj hsplit
      obtain ⟨rfl, -, rfl⟩ := Record.queued.inj heq
      exact hjoins
    | cons s newer => exact h.joins newer p' rx' actions' older (List.cons.inj hsplit).2
  · intro newer command older hsplit hcommand
    cases newer with
    | nil => cases hsplit
    | cons s newer =>
      obtain ⟨rfl, htail⟩ := List.cons.inj hsplit
      obtain ⟨hleft, hnewer⟩ := h.done newer command older htail hcommand
      have hold : announced a.history = announced newer ++ announced older := by
        rw [htail]
        exact List.flatMap_append
      have hp : p.lookupId ≠ command.lookupId :=
        hfresh _ (hold ▸ List.mem_append_right _ hcommand) hleft
      simp only [hpending]
      exact ⟨List.forall_mem_cons.mpr ⟨hp, hleft⟩, List.forall_mem_cons.mpr ⟨hp, hnewer⟩⟩

end enter

theorem move {pj : Pjsip} {config : Config} {b : Ledger} (hmove : Move pj a b)
    (hresolved : Resolved config a)
    (h : (announced a.history).length < 2 ^ 64 → Coalesced a)
    (hbound : (announced b.history).length < 2 ^ 64) : Coalesced b := by
  have hold : ∀ {r : Record}, (announced (r :: a.history)).length < 2 ^ 64 → Coalesced a := by
    intro r hlen
    rw [announced_cons, List.length_append] at hlen
    exact h (Nat.lt_of_le_of_lt (Nat.le_add_left _ _) hlen)
  cases hmove with
  | purge => exact { h hbound with }
  | answer rx actions hquiet =>
    apply (hold hbound).quiet
    · rfl
    · exact List.Subset.refl _
    · rfl
    · exact announcedBy_of_quiet hquiet
    · simp
  | enter rx p actions core' hstarted hparse hadmitted henters =>
    exact (hold hbound).enter hresolved henters hbound
  | complete env kept rest p command rx verdict nonces status core' actions hpending hid hcomp =>
    apply (hold hbound).quiet
    · rw [hcomp.core']
      rfl
    · rw [hcomp.core']
      exact unlinked_subset hpending
    · rfl
    · exact announcedBy_of_completes hcomp
    · simp
  | terminate kept rest p cause hpending =>
    apply (hold hbound).quiet
    · rfl
    · exact unlinked_subset hpending
    · rfl
    · rfl
    · simp
  | expire kept rest p status event hpending hevent =>
    apply (hold hbound).quiet
    · rfl
    · exact unlinked_subset hpending
    · rfl
    · rcases hevent with hevent | hevent <;> simp [Record.actions, announcedBy, hevent]
    · simp
  | finish command hnone =>
    apply (hold hbound).quiet
    · rfl
    · exact List.Subset.refl _
    · rfl
    · rfl
    · intro command' heq
      obtain rfl := Record.processed.inj heq
      exact hnone
  | start => exact { h hbound with }
  | release =>
    apply (hold hbound).quiet
    · rfl
    · exact List.nil_subset _
    · rfl
    · apply announcedBy_eq_nil
      intro event hmem
      simp [Record.actions, releaseEntry] at hmem
    · simp

end Coalesced

/-! ## Runs -/

theorem run_coalesced (pj : Pjsip) (config : Config) (inputs : List Input)
    (hbound : (announced (run pj config inputs).history).length < 2 ^ 64) :
    Coalesced (run pj config inputs).ledger := by
  have h : Resolved config (run pj config inputs).ledger ∧
      ((announced (run pj config inputs).ledger.history).length < 2 ^ 64 →
        Coalesced (run pj config inputs).ledger) := by
    apply run_induction (P := fun a => Resolved config a ∧
      ((announced a.history).length < 2 ^ 64 → Coalesced a))
    · refine ⟨resolved_init config, fun _ => ?_⟩
      constructor
      · rfl
      · exact fun id hid => absurd hid List.not_mem_nil
      · exact List.nodup_nil
      · exact fun p hp => absurd hp List.not_mem_nil
      · exact fun p hp => absurd hp List.not_mem_nil
      · exact fun p hp => absurd hp List.not_mem_nil
      · intro newer p rx actions older hsplit
        simp [Sys.ledger, Sys.init] at hsplit
      · intro newer command older hsplit
        simp [Sys.ledger, Sys.init] at hsplit
    · rintro a b hmove ⟨hresolved, hold⟩
      exact ⟨hresolved.move hmove, Coalesced.move hmove hresolved hold⟩
    · rintro a grants ⟨hresolved, hold⟩
      exact ⟨{ hresolved with }, fun hbound => { hold hbound with }⟩
  exact h.2 hbound

/-- **One lookup for a device at a time.** In every run with fewer than `2 ^ 64` lookups:
* entries share an id exactly if they are for the same device and realm;
* every id was announced once, and each REGISTER was queued with a new id or joined an entry that was
  in the queue;
* behind the completion of a lookup that was announced, no entry has its id and none gets it;
* a REGISTER that is refused changes nothing. -/
theorem lookups_coalesced (pj : Pjsip) (config : Config) (inputs : List Input)
    (hbound : (announced (run pj config inputs).history).length < 2 ^ 64) :
    let s := run pj config inputs
    (∀ p ∈ s.runtime.pendingAuth, ∀ q ∈ s.runtime.pendingAuth,
        p.lookupId = q.lookupId ↔ p.deviceId = q.deviceId ∧ p.realm = q.realm) ∧
      (∀ p ∈ entered s.history, (announced s.history).count p.lookupId = 1) ∧
      (announced s.history).Nodup ∧
      (∀ newer p rx actions older, s.history = newer ++ .queued p rx actions :: older →
        Joins older p actions) ∧
      (∀ newer command older, s.history = newer ++ .processed command :: older →
        command.lookupId ∈ announced older →
        (∀ p ∈ s.runtime.pendingAuth, p.lookupId ≠ command.lookupId) ∧
          ∀ p ∈ entered newer, p.lookupId ≠ command.lookupId) ∧
      ∀ env rt transaction rx deviceId realm,
        (queueRegisterLookup pj env rt transaction rx deviceId realm).1 ≠ .success →
        (queueRegisterLookup pj env rt transaction rx deviceId realm).2.1 = rt := by
  have h := run_coalesced pj config inputs hbound
  have hresolved := run_resolved pj config inputs
  refine ⟨?_, ?_, h.nodup, h.joins, h.done, ?_⟩
  · intro p hp q hq
    constructor
    · exact h.device p (hresolved.mem_entered hp) q (hresolved.mem_entered hq)
    · exact h.shared p hp q hq
  · exact fun p hp => List.count_eq_one_of_mem h.nodup (h.used p hp)
  · intro env rt transaction rx deviceId realm hfail
    rcases queueRegisterLookup_spec pj env rt transaction rx deviceId realm with
      ⟨status, actions, -, heq, -⟩ | ⟨p, rt', actions, heq, -⟩
    · rw [heq]
    · rw [heq] at hfail
      exact absurd rfl hfail

/-- Two REGISTERs of a device that wait at the same time share their lookup. -/
theorem lookups_coalesced_sample :
    let s := run samplePjsip sampleConfig
      [.start .success, .arrival [] 10 [1], .arrival [] 20 [1]]
    s.runtime.pendingAuth.length = 2 ∧ (announced s.history).length < 2 ^ 64 ∧
      ∀ p ∈ s.runtime.pendingAuth, ∀ q ∈ s.runtime.pendingAuth,
        p.lookupId = q.lookupId ↔ p.deviceId = q.deviceId ∧ p.realm = q.realm := by
  have hbound : (announced (run samplePjsip sampleConfig
      [.start .success, .arrival [] 10 [1], .arrival [] 20 [1]]).history).length < 2 ^ 64 := by
    decide +kernel
  exact ⟨by decide +kernel, hbound, (lookups_coalesced samplePjsip sampleConfig _ hbound).1⟩

/-! ## The sequence of ids starts over -/

/-- A REGISTER whose lookup takes too long. -/
def Input.expiry : List Input :=
  [.arrival [] 0 [1], .authTimeouts 1000 1000 fun _ => .ok [] 1000]

/-- A runtime that has nothing to do. -/
def idle (events lookups transactions : ℕ) (history : List Record) : Sys where
  runtime := {
    config := sampleConfig
    started := true
    lastStatus := .success
    eventSequence := events
    lookupSequence := lookups
    nonceCleanupAtMs := 2000
    pendingAuthCount := 0
    pendingAuth := []
    commands := []
    activeAuthCommand := none
    authNonces := []
    registeredSources := []
    registerOrders := [] }
  transactions := transactions
  history := history

/-- A REGISTER whose lookup takes too long uses up one id. -/
theorem foldl_expiry (events lookups transactions : ℕ) (history : List Record) : ∃ events' queued left,
      Input.expiry.foldl (step samplePjsip) (idle events lookups transactions history) =
        idle events' (u64 (lookups + 1)) (transactions + 1) (left :: queued :: history) ∧
      announcedBy queued.actions = [u64 (lookups + 1)] ∧ announcedBy left.actions = [] :=
  ⟨_, _, _, rfl, rfl, rfl⟩

/-- `n` REGISTERs whose lookups take too long. -/
def expiries (n : ℕ) : List Input :=
  [.start .success, .authTimeouts 1000 1000 fun _ => .ok [] 1000] ++
    (List.replicate n Input.expiry).flatten

/-- The ids of the first `n` lookups. -/
theorem run_expiries (n : ℕ) : ∃ events transactions history,
      run samplePjsip sampleConfig (expiries n) = idle events (u64 n) transactions history ∧
      announced history = ((List.range n).map fun i => u64 (i + 1)).reverse := by
  induction n with
  | zero => exact ⟨_, _, _, rfl, rfl⟩
  | succ n ih =>
    obtain ⟨events, transactions, history, hrun, hannounced⟩ := ih
    obtain ⟨events', queued, left, hround, hqueued, hleft⟩ :=
      foldl_expiry events (u64 n) transactions history
    have hinputs : expiries (n + 1) = expiries n ++ Input.expiry := by
      simp [expiries, List.replicate_succ']
    unfold run at hrun
    rw [u64_u64_succ] at hround hqueued
    refine ⟨events', transactions + 1, left :: queued :: history, ?_, ?_⟩
    · rw [run, hinputs, List.foldl_append, hrun, hround]
    · rw [announced_cons, announced_cons, hleft, hqueued, hannounced, List.range_succ]
      simp

/-- **Ids are used again.** The lookup behind `2 ^ 64` others is announced with the id of the
first. -/
theorem lookupId_reused :
    ¬ (announced (run samplePjsip sampleConfig (expiries (2 ^ 64 + 1))).history).Nodup := by
  obtain ⟨events, transactions, history, hrun, hannounced⟩ := run_expiries (2 ^ 64 + 1)
  have hagain : ∀ n, 0 < n → u64 (n + 1) = u64 (0 + 1) →
      ¬ ((List.range (n + 1)).map fun i => u64 (i + 1)).reverse.Nodup := by
    intro n hpos heq hnodup
    rw [List.range_succ, List.map_append, List.reverse_append] at hnodup
    refine (List.nodup_cons.mp hnodup).1 (List.mem_reverse.mpr ?_)
    exact List.mem_map.mpr ⟨0, List.mem_range.mpr hpos, heq.symm⟩
  rw [hrun]
  simp only [idle]
  rw [hannounced]
  exact hagain (2 ^ 64) (by decide) (by decide)

end GmvPjsip.Auth
