import GmvPjsip.Auth.Moves
import GmvPjsip.Auth.Server

/-!
# A REGISTER is accepted only on good grounds

* `issues`: the nonces that a history issued. `Stored`: the nonces in the list of a runtime are among
  those it issued, with the expiry they were issued with and in the order they were issued.
* `Completes.code_of_accepts`, `Completes.uses`: a REGISTER that is answered 200 was judged 200, so
  its completion was a bypass or the use of its nonce was recorded.
* `Grounds`: on what grounds a record accepts a REGISTER, and `Sound` the invariant that every record
  has them.
* `register_accepted_grounds`: the same for every run.
-/

namespace GmvPjsip.Auth

open GmvPjsip.Lib

/-! ## Issued nonces -/

/-- The nonce that an action issues, with the reading of the clock. -/
def Action.issue : Action → Option (Bytes × ℕ)
  | .issued value now => some (value, now)
  | _ => none

/-- The nonces that a history issued, the newest first. -/
def issues (history : List Record) : List (Bytes × ℕ) :=
  history.flatMap fun r => r.actions.filterMap Action.issue

/-- The newest record comes first. -/
@[simp] theorem issues_cons (r : Record) (history : List Record) :
    issues (r :: history) = r.actions.filterMap Action.issue ++ issues history := rfl

/-- The value and the expiry of a nonce. -/
def AuthNonce.stamp (nonce : AuthNonce) : Bytes × ℕ := (nonce.value, nonce.expiresAtMs)

/-- The value and the expiry of a nonce that is issued. -/
def issueStamp (issue : Bytes × ℕ) : Bytes × ℕ := (issueNonce issue.1 issue.2).stamp

/-- A stamp begins with the nonce. -/
theorem fst_issueStamp (issue : Bytes × ℕ) : (issueStamp issue).1 = issue.1 := by
  obtain ⟨value, now⟩ := issue
  exact Eq.refl value

/-- The nonces stored are those sent in challenges. -/
theorem map_stamp_issuedBy (actions : List Action) :
    (issuedBy actions).map AuthNonce.stamp = (actions.filterMap Action.issue).map issueStamp := by
  unfold issuedBy
  rw [List.map_filterMap, List.map_filterMap]
  congr 1
  funext action
  cases action <;> rfl

/-- Using a nonce keeps the values and the expiries. -/
theorem map_stamp_commitNonceUsage (now : ℕ) (callocOk : Bool) (digest : DigestCredential)
    (nonces : List AuthNonce) :
    (commitNonceUsage now callocOk digest nonces).2.map AuthNonce.stamp =
      nonces.map AuthNonce.stamp := by
  rcases commitNonceUsage_cases now callocOk digest nonces with
    h | ⟨used, nonce, nonce', hget, -, hstep, h⟩
  · rw [h]
  · rw [h]
    exact Keyed.map_set hget (Prod.ext hstep.value hstep.expires)

variable {pj : Pjsip} {env : CompleteEnv} {core core' : Core} {command : AuthCommand}
    {nonces : List AuthNonce} {transactions' : ℕ} {r : Record} {p : PendingAuth}

/-- Judging a request changes counts only. -/
theorem Judged.map_stamp {msg : SipMsg} {verdict : Verdict}
    (h : Judged pj env core msg command verdict nonces) :
    nonces.map AuthNonce.stamp = core.nonces.map AuthNonce.stamp := by
  rcases h with ⟨rfl, -⟩ | ⟨used, ⟨-, -, auth, -, hcommit⟩, -⟩
  · rfl
  · rw [← map_stamp_commitNonceUsage env.now env.usageCalloc auth.digest core.nonces, hcommit]

/-- From one ledger to a later one, `b`: what was issued stays issued, and the stored nonces are old
ones or were issued in between. -/
def Grows (a b : Ledger) : Prop :=
  ∃ new, issues b.history = new ++ issues a.history ∧ (b.core.nonces.map AuthNonce.stamp).Sublist
      (new.map issueStamp ++ a.core.nonces.map AuthNonce.stamp)

namespace Grows

variable {a b c : Ledger}

theorem refl (a : Ledger) : Grows a a := ⟨[], rfl, List.Sublist.refl _⟩

theorem trans (hab : Grows a b) (hbc : Grows b c) : Grows a c := by
  obtain ⟨new, hissues, hnonces⟩ := hab
  obtain ⟨newer, hissues', hnonces'⟩ := hbc
  refine ⟨newer ++ new, ?_, ?_⟩
  · rw [hissues', hissues, List.append_assoc]
  · rw [List.map_append, List.append_assoc]
    exact hnonces'.trans (hnonces.append_left _)

/-- One more record, and nonces may go. -/
theorem record (hnonces : (core'.nonces.map AuthNonce.stamp).Sublist
      ((issuedBy r.actions ++ a.core.nonces).map AuthNonce.stamp)) :
    Grows a ⟨core', transactions', r :: a.history⟩ := by
  refine ⟨r.actions.filterMap Action.issue, issues_cons r a.history, ?_⟩
  rwa [List.map_append, map_stamp_issuedBy] at hnonces

/-- One more record, and the nonces stay. -/
theorem same
    (hnonces : core'.nonces = a.core.nonces) : Grows a ⟨core', transactions', r :: a.history⟩ := by
  apply record
  rw [hnonces]
  exact (List.sublist_append_right _ _).map _

theorem move (hmove : Move pj a b) : Grows a b := by
  cases hmove with
  | purge now k => exact ⟨[], rfl, (purgeFront_sublist now k a.core.nonces).map _⟩
  | answer => exact record (List.Sublist.refl _)
  | enter rx p actions core' hstarted hparse hadmitted henters =>
    apply same
    rw [henters.core']
  | complete env kept rest p command rx verdict nonces status core' actions hpending hid hcomp =>
    apply record
    rw [hcomp.core', List.map_append, List.map_append, hcomp.judged.map_stamp]
    exact List.Sublist.refl _
  | terminate | expire | finish => exact same rfl
  | start => exact refl a
  | release => exact record (List.nil_sublist _)

/-- A whole sequence of moves and edits. -/
theorem edits (h : Relation.ReflTransGen (Edit pj) a b) : Grows a b := by
  induction h with
  | refl => exact refl a
  | tail _ hedit ih =>
    cases hedit with
    | move hmove => exact ih.trans (move hmove)
    | grants => exact ih.trans (refl _)

end Grows

/-- The stored nonces are issued ones. -/
def Stored (a : Ledger) : Prop :=
  (a.core.nonces.map AuthNonce.stamp).Sublist ((issues a.history).map issueStamp)

namespace Stored

variable {a b : Ledger}

/-- A stored nonce was issued, and its expiry is that of its issue. -/
theorem issued (h : Stored a) {nonce : AuthNonce} (hnonce : nonce ∈ a.core.nonces) :
    ∃ t, (nonce.value, t) ∈ issues a.history ∧ nonce.expiresAtMs ≤ t + nonceTtlMs := by
  have hmem := h.subset (List.mem_map_of_mem (f := AuthNonce.stamp) hnonce)
  obtain ⟨⟨value, t⟩, hissue, hstamp⟩ := List.mem_map.mp hmem
  obtain ⟨rfl, hexpires⟩ := Prod.mk.inj hstamp
  refine ⟨t, hissue, ?_⟩
  rw [← hexpires]
  exact u64_le _

theorem grows (h : Stored a) (hgrows : Grows a b) : Stored b := by
  obtain ⟨new, hissues, hnonces⟩ := hgrows
  unfold Stored
  rw [hissues, List.map_append]
  exact hnonces.trans (h.append_left _)

theorem move (hmove : Move pj a b) (h : Stored a) : Stored b := h.grows (.move hmove)

end Stored

/-! ## Acceptance -/

/-- The action accepts a REGISTER: a response 200, or the event that tells of it. -/
def Action.accepts : Action → Bool
  | .respond _ code _ _ _ => decide (code = 200)
  | .emit event => decide (event.eventType = .registered ∨ event.eventType = .unregistered)
  | _ => false

/-- The record accepts a REGISTER. -/
def Record.accepts (r : Record) : Bool := r.actions.any Action.accepts

/-- A record without an accepting action accepts nothing. -/
theorem Record.not_accepts (h : ∀ action ∈ r.actions, action.accepts = false) :
    ¬ r.accepts = true := by
  intro haccepts
  obtain ⟨action, hmem, hacc⟩ := List.any_eq_true.mp haccepts
  simp [h action hmem] at hacc

/-- A quiet action does not accept. -/
theorem Action.Quiet.not_accepts {transaction : ℕ} {action : Action}
    (h : action.Quiet transaction) : action.accepts = false := by
  cases action with
  | issued | terminate => rfl
  | respond => exact decide_eq_false h.2
  | emit event =>
    have htype : event.eventType = .requestReceived := h
    simp [Action.accepts, htype]

/-- Entering a request does not accept it. -/
theorem Enters.not_accepts {transaction : ℕ} {actions : List Action}
    (h : Enters core transaction p actions core') :
    ∀ action ∈ actions, action.accepts = false := by
  intro action hmem
  obtain ⟨event, rfl, htype⟩ := h.actions action hmem
  rcases htype with htype | htype <;> simp [Action.accepts, htype]

section completion

variable {pj : Pjsip} {env : CompleteEnv} {core core' : Core} {p : PendingAuth}
  {command : AuthCommand} {rx : RxData} {verdict : Verdict} {nonces : List AuthNonce}
  {status : PjStatus} {actions : List Action}

/-- A completion that accepts a REGISTER answers it 200, and it was judged so. -/
theorem Completes.code_of_accepts
    (h : Completes pj env core p command rx verdict nonces status core' actions)
    (haccepts : actions.any Action.accepts = true) :
    answerCode core.orders p rx.msg verdict.code = 200 ∧ verdict.code = 200 := by
  obtain ⟨issue, events, rfl, hissue, hreports⟩ := h.actions
  have hcode : answerCode core.orders p rx.msg verdict.code = 200 := by
    rw [List.any_eq_true] at haccepts
    obtain ⟨action, hmem, hacc⟩ := haccepts
    rcases List.mem_append.mp hmem with hleft | hright
    · obtain ⟨value, now, rfl⟩ := hissue action hleft
      cases hacc
    · rcases List.mem_cons.mp hright with rfl | hevent
      · exact of_decide_eq_true hacc
      · obtain ⟨event, rfl, -⟩ := hreports.emits action hevent
        exact hreports.ok event hevent (of_decide_eq_true hacc)
  refine ⟨hcode, ?_⟩
  unfold answerCode at hcode
  split_ifs at hcode with hstale
  · cases hcode
  · exact hcode

/-- A credential that accepts a REGISTER was verified, and the use of the nonce was recorded. -/
theorem Judged.uses (hpj : pj.AuthSrvSound) {msg : SipMsg}
    (h : Judged pj env core msg command verdict nonces) (hcode : verdict.code = 200)
    (hresult : command.result ≠ .bypass) : UsesNonce pj env core msg command true nonces := by
  rcases h with ⟨-, hok⟩ | ⟨used, huses, hok⟩
  · rcases hok hcode with hbypass | ⟨hfail, h200⟩
    · exact absurd hbypass hresult
    · exact absurd ((hpj.code_eq_ok _ _ _).mp h200) hfail
  · rw [hok hcode] at huses
    exact huses

/-- A rebuilt request is parsed from the stored packet. -/
theorem rebuildPendingRdata_eq_some (h : rebuildPendingRdata pj p = some rx) :
    pj.parseRdata p.packet = some rx.msg := by
  unfold rebuildPendingRdata at h
  split_ifs at h with hsize
  obtain ⟨msg, hmsg, rfl⟩ := Option.map_eq_some_iff.mp h
  exact hmsg

end completion

/-! ## Grounds -/

/-- What a credential that accepts a REGISTER rests on. `issued` are the nonces issued before, and
`now` is the reading of the clock at acceptance. -/
structure Authenticated (pj : Pjsip) (config : Config) (issued : List (Bytes × ℕ)) (msg : SipMsg)
    (command : AuthCommand) (now : ℕ) (auth : AuthorizationHdr) : Prop where
  header : authHeader msg = some auth
  /-- The checks on arrival. -/
  checks : ArrivalChecks pj config msg auth
  username : auth.digest.username = command.username
  realm : auth.digest.realm = command.realm
  verified : (verifiedBy pj config msg command).1 = .success
  /-- The digest is that of the completion's secret. -/
  secret : ∃ cred, authLookup (some command) auth.digest.username auth.digest.realm = .ok cred ∧
    cred.data = command.secret ∧ pj.digestMatches cred msg auth.digest = true
  /-- The nonce was issued less than its lifetime ago. -/
  nonce : ∃ t, (auth.digest.nonce, t) ∈ issued ∧ now < t + nonceTtlMs

/-- The grounds on which a record accepts a REGISTER, given what happened before: the REGISTER was
queued, and a completion of its lookup was a bypass or a credential that authenticates it. -/
def Grounds (pj : Pjsip) (config : Config) (older : List Record) (r : Record) : Prop :=
  ∃ p rx arrival command env verdict actions,
    r = .left p (.completed command env verdict) actions ∧ command.lookupId = p.lookupId ∧
    .queued p rx arrival ∈ older ∧ Admitted pj config rx p ∧
    pj.parseRdata rx.packet = some rx.msg ∧
    (command.result = .bypass ∨ (command.result = .credential ∧
      ∃ auth, Authenticated pj config (issues older) rx.msg command env.now auth))

/-- What the lookup callback finds is the completion's credential. -/
theorem authLookup_eq_ok {username realm : Bytes} {cred : CredInfo}
    (h : authLookup (some command) username realm = .ok cred) :
    username = command.username ∧ realm = command.realm ∧ cred.data = command.secret := by
  simp only [authLookup] at h
  split_ifs at h with hrefused
  obtain rfl := Except.ok.inj h
  simp only [not_or, not_not] at hrefused
  exact ⟨hrefused.2.1, hrefused.2.2, rfl⟩

/-- A credential that uses its nonce authenticates a REGISTER that passed the checks on arrival. -/
theorem UsesNonce.authenticated (hpj : pj.AuthSrvSound) {config : Config} {a : Ledger} {rx : RxData}
    (h : UsesNonce pj env core rx.msg command true nonces) (hconfig : core.config = config)
    (hadmitted : Admitted pj config rx p) (hstored : Stored a)
    (hnonces : core.nonces = a.core.nonces) :
    ∃ auth, Authenticated pj config (issues a.history) rx.msg command env.now auth := by
  obtain ⟨-, hverified, auth, hauth, hcommit⟩ := h
  rw [hconfig] at hverified
  have hchecks := hadmitted.checks auth hauth
  obtain ⟨auth', cred, hfind, hlookup, hdigest⟩ := hpj.credential _ _ _ hverified
  -- the first header has the realm, so it is the one PJSIP verified
  obtain rfl : auth = auth' := by
    unfold authHeader at hauth
    obtain ⟨tail, htail⟩ := List.head?_eq_some_iff.mp hauth
    rw [htail, List.find?_cons_of_pos (by rw [hchecks.realm]; exact stricmp_self _)] at hfind
    exact Option.some.inj hfind
  obtain ⟨husername, hrealm, hsecret⟩ := authLookup_eq_ok hlookup
  refine ⟨auth, hauth, hchecks, husername, hchecks.realm.trans hrealm, hverified,
    ⟨cred, hchecks.realm.symm ▸ hlookup, hsecret, hdigest⟩, ?_⟩
  rcases commitNonceUsage_cases env.now env.usageCalloc auth.digest core.nonces with
    hnone | ⟨used, nonce, nonce', hget, hexpires, -, -⟩
  · rw [hnone] at hcommit
    cases hcommit
  · obtain ⟨hmem, hvalue⟩ := Keyed.get_eq_some hget
    rw [hnonces] at hmem
    obtain ⟨t, hissued, hle⟩ := hstored.issued hmem
    rw [hvalue] at hissued
    exact ⟨t, hissued, Nat.lt_of_lt_of_le hexpires hle⟩

/-- What holds of the queue, the nonces and the history at any time. -/
structure Sound (pj : Pjsip) (config : Config) (a : Ledger) : Prop where
  config_eq : a.core.config = config
  stored : Stored a
  /-- Every entry was queued for a REGISTER that passed the checks. -/
  queued : ∀ p ∈ a.core.pending, ∃ rx actions, .queued p rx actions ∈ a.history ∧
    Admitted pj config rx p ∧ pj.parseRdata rx.packet = some rx.msg
  grounds : ∀ newer r older, a.history = newer ++ r :: older → r.accepts = true →
    Grounds pj config older r

namespace Sound

variable {pj : Pjsip} {config : Config} {a : Ledger}

/-- One more record, which has its grounds if it accepts a REGISTER. -/
theorem extend (h : Sound pj config a) (hconfig : core'.config = a.core.config)
    (hstored : Stored ⟨core', transactions', r :: a.history⟩)
    (hpending : ∀ p ∈ core'.pending, p ∈ a.core.pending ∨ ∃ rx actions, r = .queued p rx actions ∧
      Admitted pj config rx p ∧ pj.parseRdata rx.packet = some rx.msg)
    (hgrounds : r.accepts = true → Grounds pj config a.history r) :
    Sound pj config ⟨core', transactions', r :: a.history⟩ := by
  refine ⟨hconfig.trans h.config_eq, hstored, ?_, ?_⟩
  · intro p hp
    rcases hpending p hp with hold | ⟨rx, actions, rfl, hadmitted, hparse⟩
    · obtain ⟨rx, actions, hmem, hrest⟩ := h.queued p hold
      exact ⟨rx, actions, List.mem_cons_of_mem _ hmem, hrest⟩
    · exact ⟨rx, actions, List.mem_cons_self, hadmitted, hparse⟩
  · intro newer r' older hsplit haccepts
    cases newer with
    | nil =>
      obtain ⟨rfl, rfl⟩ := List.cons.inj hsplit
      exact hgrounds haccepts
    | cons s newer => exact h.grounds newer r' older (List.cons.inj hsplit).2 haccepts

theorem complete (hpj : pj.AuthSrvSound) (h : Sound pj config a) {kept rest : List PendingAuth}
    {rx : RxData}
    {verdict : Verdict} {status : PjStatus}
    {actions : List Action} (hpending : a.core.pending = kept ++ p :: rest)
    (hid : p.lookupId = command.lookupId)
    (hcomp : Completes pj env (a.core.unlink (kept ++ rest)) p command rx verdict nonces status
      core' actions)
    (haccepts : actions.any Action.accepts = true) :
    Grounds pj config a.history (.left p (.completed command env (some verdict.code)) actions) := by
  obtain ⟨rx', arrival, hqueued, hadmitted, hparse⟩ :=
    h.queued p (by rw [hpending]; exact List.mem_append_right _ List.mem_cons_self)
  have hsame : rx.msg = rx'.msg := by
    have hagain := rebuildPendingRdata_eq_some hcomp.rebuilt
    rw [hadmitted.packet, hparse] at hagain
    exact (Option.some.inj hagain).symm
  refine ⟨p, rx', arrival, command, env, _, actions, rfl, hid.symm, hqueued, hadmitted, hparse, ?_⟩
  by_cases hbypass : command.result = .bypass
  · exact Or.inl hbypass
  · have huses := hcomp.judged.uses hpj (hcomp.code_of_accepts haccepts).2 hbypass
    rw [hsame] at huses
    exact Or.inr ⟨huses.1, huses.authenticated hpj h.config_eq hadmitted h.stored rfl⟩

theorem move (hpj : pj.AuthSrvSound) {b : Ledger} (hmove : Move pj a b) (h : Sound pj config a) :
    Sound pj config b := by
  have hstored := h.stored.move hmove
  cases hmove with
  | purge => exact { h with stored := hstored }
  | answer rx actions hquiet =>
    apply h.extend
    · rfl
    · exact hstored
    · exact fun p hp => Or.inl hp
    · intro haccepts
      refine absurd haccepts (Record.not_accepts fun action hmem => ?_)
      exact (hquiet action hmem).not_accepts
  | enter rx p actions core' hstarted hparse hadmitted henters =>
    rw [h.config_eq] at hadmitted
    apply h.extend
    · rw [henters.core']
    · exact hstored
    · intro q hq
      rw [henters.core'] at hq
      rcases List.mem_cons.mp hq with rfl | hold
      · exact Or.inr ⟨rx, actions, rfl, hadmitted, hparse⟩
      · exact Or.inl hold
    · intro haccepts
      exact absurd haccepts (Record.not_accepts henters.not_accepts)
  | complete env kept rest p command rx verdict nonces status core' actions hpending hid hcomp =>
    apply h.extend
    · rw [hcomp.core']
      rfl
    · exact hstored
    · intro q hq
      rw [hcomp.core'] at hq
      exact Or.inl (unlinked_subset hpending hq)
    · exact h.complete hpj hpending hid hcomp
  | terminate kept rest p cause hpending =>
    apply h.extend
    · rfl
    · exact hstored
    · exact fun q hq => Or.inl (unlinked_subset hpending hq)
    · simp [Record.accepts, Record.actions, Action.accepts]
  | expire kept rest p status event hpending hevent =>
    apply h.extend
    · rfl
    · exact hstored
    · exact fun q hq => Or.inl (unlinked_subset hpending hq)
    · rcases hevent with hevent | hevent <;>
        simp [Record.accepts, Record.actions, Action.accepts, hevent]
  | finish =>
    apply h.extend
    · rfl
    · exact hstored
    · exact fun p hp => Or.inl hp
    · simp [Record.accepts, Record.actions]
  | start => exact { h with }
  | release =>
    apply h.extend
    · rfl
    · exact hstored
    · simp
    · intro haccepts
      refine absurd haccepts (Record.not_accepts fun action hmem => ?_)
      obtain ⟨p, -, rfl⟩ := List.mem_map.mp hmem
      rfl

end Sound

/-- **Every run is sound.** -/
theorem run_sound (hpj : pj.AuthSrvSound) (config : Config) (inputs : List Input) :
    Sound pj config (run pj config inputs).ledger := by
  apply run_induction
  · refine ⟨rfl, List.nil_sublist _, by simp [Sys.ledger, Sys.init, Runtime.core], ?_⟩
    intro newer r older hsplit
    simp [Sys.ledger, Sys.init] at hsplit
  · exact fun a b hmove h => h.move hpj hmove
  · exact fun a grants h => { h with }

/-- **A REGISTER is accepted only on good grounds.** In every run, a response 200 and an event that a
device registered or unregistered come from a completion of the lookup the REGISTER was queued for.
The completion was a bypass, or a credential that authenticates the REGISTER with a nonce the runtime
issued before and that is unexpired. -/
theorem register_accepted_grounds {pj : Pjsip} (hpj : pj.AuthSrvSound) (config : Config)
    (inputs : List Input) {newer older : List Record} {r : Record}
    (hr : (run pj config inputs).history = newer ++ r :: older) (haccepts : r.accepts = true) :
    Grounds pj config older r :=
  (run_sound hpj config inputs).grounds newer r older hr haccepts

/-- A device that answers a challenge is accepted, on these grounds. -/
theorem register_accepted_grounds_sample :
    ∃ newer r older, (run samplePjsip sampleConfig (sampleInputs [2] [3])).history =
        newer ++ r :: older ∧ r.accepts = true ∧ Grounds samplePjsip sampleConfig older r := by
  generalize hhistory : (run samplePjsip sampleConfig (sampleInputs [2] [3])).history = history
  have haccepts : (history.drop 1).map Record.accepts =
      [true, false, false, true, false, false, false, false] := by
    rw [← hhistory]
    decide +kernel
  rcases hdrop : history.drop 1 with _ | ⟨r, older⟩
  · simp [hdrop] at haccepts
  · rw [hdrop, List.map_cons] at haccepts
    have hr : r.accepts = true := (List.cons.inj haccepts).1
    have hsplit : history = history.take 1 ++ r :: older := by
      rw [← hdrop, List.take_append_drop]
    exact ⟨history.take 1, r, older, hsplit, hr,
      register_accepted_grounds (server_authSrvSound _) sampleConfig _ (hhistory.trans hsplit) hr⟩

end GmvPjsip.Auth
