import GmvPjsip.Auth.Arrivals
import GmvPjsip.Auth.Soundness

/-!
# Replayed digests

What the usage records of a nonce protect from, over whole runs.

* `acceptedDigests`: the digests of the REGISTERs that a history accepted through a credential.
* `Noted` is what a usage record remembers of a digest it was used by, and `Apart` what this says
  about two digests accepted one after the other under the same `username` and `cnonce`: with `qop`
  the nonce count grows, and only one of them is without `qop`.
* `Unreplayed` is the invariant: the stored records remember every accepted digest, and accepted
  digests are apart. It needs that no nonce value is issued twice.
* `qop_counts_increase`: with `qop`, accepted nonce counts grow in every run.
* `no_qop_once_iff`: without `qop`, a response is accepted once exactly if its accepted copies carry
  one `cnonce`. `no_qop_accepted_once`: so it is if the copies that arrive do. `no_qop_replayed` is a
  run in which they do not.
-/

namespace GmvPjsip.Auth

open GmvPjsip.Lib

/-! ## Accepted digests -/

/-- The digest of a REGISTER that a record accepts through a credential. -/
def Record.acceptedDigest (pj : Pjsip) : Record → Option DigestCredential
  | .left p (.completed command _ _) actions =>
    if command.result = .credential ∧ actions.any Action.accepts = true then
      ((pj.parseRdata p.packet).bind authHeader).map AuthorizationHdr.digest
    else none
  | _ => none

/-- The digests accepted through credentials. -/
def acceptedDigests (pj : Pjsip) (history : List Record) : List DigestCredential :=
  history.filterMap (Record.acceptedDigest pj)

section records

variable {pj : Pjsip} {r : Record} {history : List Record}

@[simp] theorem acceptedDigests_cons : acceptedDigests pj (r :: history) =
      (r.acceptedDigest pj).toList ++ acceptedDigests pj history := by
  unfold acceptedDigests
  rcases h : r.acceptedDigest pj with _ | digest
  · rw [List.filterMap_cons_none h]
    rfl
  · rw [List.filterMap_cons_some h]
    rfl

theorem acceptedDigest_of_not_accepts (h : r.accepts = false) : r.acceptedDigest pj = none := by
  cases r with
  | left p cause =>
    cases cause with
    | completed =>
      refine if_neg fun hacc => ?_
      exact Bool.false_ne_true (h.symm.trans hacc.2)
    | timedOut => rfl
  | answered | queued | processed | stopped => rfl

end records

/-! ## What a usage record remembers -/

/-- The record remembers the digest. -/
structure Noted (digest : DigestCredential) (usage : NonceUsage) : Prop where
  withQop : digest.qop.length ≠ 0 →
    ∃ nonceCount, parseNonceCount digest.nc = some nonceCount ∧ nonceCount ≤ usage.lastNc
  withoutQop : digest.qop.length = 0 → usage.usedWithoutQop = true

/-- What holds of a digest `later` that is accepted behind `earlier`. -/
structure Apart (later earlier : DigestCredential) : Prop where
  withQop : later.qop.length ≠ 0 → earlier.qop.length ≠ 0 →
    ∃ n n', parseNonceCount earlier.nc = some n ∧ parseNonceCount later.nc = some n' ∧ n < n'
  withoutQop : ¬ (later.qop.length = 0 ∧ earlier.qop.length = 0)

section noted

variable {digest later : DigestCredential} {usage : NonceUsage}

/-- What is remembered stays remembered. -/
theorem Noted.kept (h : Noted digest usage) : Noted digest (useRecord later usage).2 := by
  have hmono := useRecord_mono later usage
  constructor
  · intro hqop
    obtain ⟨nonceCount, hparse, hle⟩ := h.withQop hqop
    exact ⟨nonceCount, hparse, Nat.le_trans hle hmono.1⟩
  · intro hqop
    exact hmono.2 (h.withoutQop hqop)

/-- A record remembers the digest it was used by. -/
theorem noted_useRecord (h : (useRecord digest usage).1 = true) :
    Noted digest (useRecord digest usage).2 := by
  constructor
  · intro hqop
    obtain ⟨nonceCount, hparse, -, hlast⟩ := useRecord_of_qop hqop h
    exact ⟨nonceCount, hparse, Nat.le_of_eq hlast.symm⟩
  · intro hqop
    exact (useRecord_of_no_qop hqop h).2

/-- A record cannot be used by a digest that is not apart from one it remembers. -/
theorem Noted.apart (h : Noted digest usage) (hused : (useRecord later usage).1 = true) :
    Apart later digest := by
  constructor
  · intro hlater hqop
    obtain ⟨n, hn, hle⟩ := h.withQop hqop
    obtain ⟨n', hn', hlt, -⟩ := useRecord_of_qop hlater hused
    exact ⟨n, n', hn, hn', Nat.lt_of_le_of_lt hle hlt⟩
  · rintro ⟨hlater, hqop⟩
    have hfresh := (useRecord_of_no_qop hlater hused).1
    rw [h.withoutQop hqop] at hfresh
    cases hfresh

end noted

/-! ## What the stored nonces remember -/

/-- The usage records of every stored nonce remember the digests. -/
def AllNoted (digests : List DigestCredential) (nonces : List AuthNonce) : Prop :=
  ∀ digest ∈ digests, ∀ nonce ∈ nonces, nonce.value = digest.nonce →
    ∃ usage, Keyed.get NonceUsage.key digest.usageKey nonce.usages = some usage ∧ Noted digest usage

namespace AllNoted

variable {digests : List DigestCredential} {nonces : List AuthNonce}

theorem subset (h : AllNoted digests nonces) {nonces' : List AuthNonce}
    (hsub : nonces' ⊆ nonces) : AllNoted digests nonces' :=
  fun digest hdigest nonce hnonce => h digest hdigest nonce (hsub hnonce)

/-- New nonces have nothing to remember. -/
theorem append (h : AllNoted digests nonces) {new : List AuthNonce}
    (hnew : ∀ digest ∈ digests, ∀ nonce ∈ new, nonce.value ≠ digest.nonce) :
    AllNoted digests (new ++ nonces) := by
  intro digest hdigest nonce hnonce hvalue
  rcases List.mem_append.mp hnonce with hmem | hmem
  · exact absurd hvalue (hnew digest hdigest nonce hmem)
  · exact h digest hdigest nonce hmem hvalue

/-- What one use of a nonce does: everything stays remembered. A digest that is accepted is
remembered too, and it is apart from those under its key. -/
theorem use {used : Bool} {later : DigestCredential} {nonce nonce' : AuthNonce}
    (h : AllNoted digests nonces) (hnodup : (nonces.map AuthNonce.value).Nodup)
    (hget : Keyed.get AuthNonce.value later.nonce nonces = some nonce)
    (hstep : UsageStep later used nonce nonce') :
    AllNoted digests (Keyed.set AuthNonce.value later.nonce nonce' nonces) ∧ (used = true →
        AllNoted (later :: digests) (Keyed.set AuthNonce.value later.nonce nonce' nonces) ∧
        ∀ digest ∈ digests, digest.nonce = later.nonce → digest.usageKey = later.usageKey →
          Apart later digest) := by
  obtain ⟨hmem, hvalue⟩ := Keyed.get_eq_some hget
  obtain ⟨usage, hold, hown, hused⟩ := hstep.own
  have hkept : AllNoted digests (Keyed.set AuthNonce.value later.nonce nonce' nonces) := by
    intro digest hdigest item hitem hitemvalue
    rcases Keyed.mem_set hnodup hitem with rfl | ⟨hitem, -⟩
    · -- the nonce that was used
      obtain ⟨noted, hnoted, hremembers⟩ :=
        h digest hdigest nonce hmem (hstep.value.symm.trans hitemvalue)
      by_cases hkey : digest.usageKey = later.usageKey
      · rw [hkey] at hnoted ⊢
        obtain rfl := hold noted hnoted
        exact ⟨_, hown, hremembers.kept⟩
      · exact ⟨noted, (hstep.other _ hkey).trans hnoted, hremembers⟩
    · exact h digest hdigest item hitem hitemvalue
  refine ⟨hkept, fun htrue => ⟨?_, ?_⟩⟩
  · intro digest hdigest item hitem hitemvalue
    rcases List.mem_cons.mp hdigest with rfl | hdigest
    · rcases Keyed.mem_set hnodup hitem with rfl | ⟨-, hne⟩
      · exact ⟨_, hown, noted_useRecord (hused.symm.trans htrue)⟩
      · exact absurd hitemvalue hne
    · exact hkept digest hdigest item hitem hitemvalue
  · intro digest hdigest hnonce hkey
    obtain ⟨noted, hnoted, hremembers⟩ :=
      h digest hdigest nonce hmem (hvalue.trans hnonce.symm)
    rw [hkey] at hnoted
    obtain rfl := hold noted hnoted
    exact hremembers.apart (hused.symm.trans htrue)

end AllNoted

/-! ## The invariant -/

/-- No nonce value was issued twice. -/
def FreshNonces (history : List Record) : Prop := ((issues history).map Prod.fst).Nodup

instance (history : List Record) : Decidable (FreshNonces history) :=
  inferInstanceAs (Decidable (List.Nodup _))

variable {r : Record} {core' : Core} {nonces : List AuthNonce} {pj : Pjsip}

theorem FreshNonces.tail {history : List Record} (h : FreshNonces (r :: history)) :
    FreshNonces history := by
  unfold FreshNonces at h
  rw [issues_cons, List.map_append] at h
  exact (List.nodup_append.mp h).2.1

/-- The values of the nonces a record issues are new. -/
theorem FreshNonces.ne {history : List Record} (h : FreshNonces (r :: history)) {nonce : AuthNonce}
    (hnonce : nonce ∈ issuedBy r.actions) {value : Bytes}
    (hvalue : value ∈ (issues history).map Prod.fst) : nonce.value ≠ value := by
  unfold FreshNonces at h
  rw [issues_cons, List.map_append] at h
  refine (List.nodup_append.mp h).2.2 _ ?_ value hvalue
  have hmem := List.mem_map_of_mem (f := AuthNonce.stamp) hnonce
  rw [map_stamp_issuedBy] at hmem
  obtain ⟨issue, hissue, hstamp⟩ := List.mem_map.mp hmem
  have hfst : (issueStamp issue).1 = nonce.stamp.1 := by rw [hstamp]
  rw [fst_issueStamp] at hfst
  have hvalue' := List.mem_map_of_mem (f := Prod.fst) hissue
  rw [hfst] at hvalue'
  exact hvalue'

theorem Stored.values_sublist {a : Ledger} (h : Stored a) :
    (a.core.nonces.map AuthNonce.value).Sublist ((issues a.history).map Prod.fst) := by
  have hfst := List.Sublist.map Prod.fst h
  simp only [List.map_map, Function.comp_def, fst_issueStamp] at hfst
  exact hfst

/-- Later acceptances are apart from earlier ones under the same nonce, username and `cnonce`. -/
def ApartOnKey (later earlier : DigestCredential) : Prop :=
  earlier.nonce = later.nonce → earlier.usageKey = later.usageKey → Apart later earlier

/-- What holds of the nonces and the history at any time. -/
structure Unreplayed (pj : Pjsip) (a : Ledger) : Prop where
  issued : ∀ digest ∈ acceptedDigests pj a.history, digest.nonce ∈ (issues a.history).map Prod.fst
  noted : AllNoted (acceptedDigests pj a.history) a.core.nonces
  apart : (acceptedDigests pj a.history).Pairwise ApartOnKey

namespace Unreplayed

variable {pj : Pjsip} {a : Ledger}

/-- One more record. The nonces stored behind it are `nonces` and those it issues. -/
theorem extend (h : Unreplayed pj a) {transactions' : ℕ} (hfresh : FreshNonces (r :: a.history))
    (hnonces : core'.nonces ⊆ issuedBy r.actions ++ nonces)
    (hissued : ∀ digest ∈ (r.acceptedDigest pj).toList, digest.nonce ∈ (issues a.history).map Prod.fst)
    (hnoted : AllNoted (acceptedDigests pj (r :: a.history)) nonces)
    (hapart : ∀ later ∈ (r.acceptedDigest pj).toList, ∀ earlier ∈ acceptedDigests pj a.history,
      ApartOnKey later earlier) :
    Unreplayed pj ⟨core', transactions', r :: a.history⟩ := by
  have hold : ∀ digest ∈ acceptedDigests pj (r :: a.history),
      digest.nonce ∈ (issues a.history).map Prod.fst := by
    intro digest hdigest
    rw [acceptedDigests_cons] at hdigest
    rcases List.mem_append.mp hdigest with hnew | hmem
    · exact hissued digest hnew
    · exact h.issued digest hmem
  constructor
  · intro digest hdigest
    rw [issues_cons, List.map_append]
    exact List.mem_append_right _ (hold digest hdigest)
  · refine AllNoted.subset (hnoted.append ?_) hnonces
    exact fun digest hdigest nonce hnonce => hfresh.ne hnonce (hold digest hdigest)
  · rw [acceptedDigests_cons, List.pairwise_append]
    refine ⟨?_, h.apart, hapart⟩
    rcases r.acceptedDigest pj with _ | digest
    · exact List.Pairwise.nil
    · exact List.pairwise_singleton _ _

/-- A record that accepts nothing. -/
theorem quiet (h : Unreplayed pj a) {transactions' : ℕ} (hfresh : FreshNonces (r :: a.history))
    (hnone : r.acceptedDigest pj = none)
    (hnonces : core'.nonces ⊆ issuedBy r.actions ++ nonces)
    (hnoted : AllNoted (acceptedDigests pj a.history) nonces) :
    Unreplayed pj ⟨core', transactions', r :: a.history⟩ := by
  refine h.extend hfresh hnonces ?_ ?_ ?_
  · rw [hnone]
    exact fun digest hdigest => absurd hdigest List.not_mem_nil
  · rw [acceptedDigests_cons, hnone]
    exact hnoted
  · rw [hnone]
    exact fun digest hdigest => absurd hdigest List.not_mem_nil

/-- A completion: the nonce may be used, and a digest that is accepted used it. -/
theorem complete (hpj : pj.AuthSrvSound) (hstored : Stored a) (h : Unreplayed pj a)
    {env : CompleteEnv} {kept rest : List PendingAuth} {p : PendingAuth} {command : AuthCommand}
    {rx : RxData} {verdict : Verdict} {status : PjStatus}
    {actions : List Action}
    (hcomp : Completes pj env (a.core.unlink (kept ++ rest)) p command rx verdict nonces status
      core' actions)
    (hfresh : FreshNonces (.left p (.completed command env (some verdict.code)) actions :: a.history)) :
    Unreplayed pj ⟨core', a.transactions,
      .left p (.completed command env (some verdict.code)) actions :: a.history⟩ := by
  set r := Record.left p (.completed command env (some verdict.code)) actions with hr
  have hnodup : (a.core.nonces.map AuthNonce.value).Nodup :=
    hfresh.tail.sublist hstored.values_sublist
  have hcore : core'.nonces ⊆ issuedBy r.actions ++ nonces := by
    rw [hcomp.core']
    exact List.Subset.refl _
  have hparse := rebuildPendingRdata_eq_some hcomp.rebuilt
  by_cases haccepts : command.result = .credential ∧ actions.any Action.accepts = true
  · -- the digest was verified and used its nonce
    have hbypass : command.result ≠ .bypass := by
      rw [haccepts.1]
      exact fun heq => by cases heq
    obtain ⟨-, -, auth, hauth, hcommit⟩ :=
      hcomp.judged.uses hpj (hcomp.code_of_accepts haccepts.2).2 hbypass
    have hdigest : r.acceptedDigest pj = some auth.digest := by
      simp [hr, Record.acceptedDigest, haccepts, hparse, hauth]
    rcases commitNonceUsage_cases env.now env.usageCalloc auth.digest a.core.nonces with
      hnone | ⟨used, nonce, nonce', hget, -, hstep, hset⟩
    · cases hnone.symm.trans hcommit
    · obtain ⟨rfl, rfl⟩ := Prod.mk.inj (hset.symm.trans hcommit)
      obtain ⟨hmem, hvalue⟩ := Keyed.get_eq_some hget
      obtain ⟨hnoted, hapart⟩ := (h.noted.use hnodup hget hstep).2 rfl
      refine h.extend hfresh hcore ?_ ?_ ?_
      · rw [hdigest]
        intro digest hmem'
        obtain rfl := List.mem_singleton.mp hmem'
        rw [← hvalue]
        exact hstored.values_sublist.subset (List.mem_map_of_mem hmem)
      · rw [acceptedDigests_cons, hdigest]
        exact hnoted
      · rw [hdigest]
        intro digest hmem'
        obtain rfl := List.mem_singleton.mp hmem'
        exact hapart
  · have hnone : r.acceptedDigest pj = none := if_neg haccepts
    refine h.quiet hfresh hnone hcore ?_
    rcases hcomp.judged with ⟨hsame, -⟩ | ⟨used, ⟨-, -, auth, hauth, hcommit⟩, -⟩
    · rw [hsame]
      exact h.noted
    · rcases commitNonceUsage_cases env.now env.usageCalloc auth.digest a.core.nonces with
        hnone | ⟨used', nonce, nonce', hget, -, hstep, hset⟩
      · obtain ⟨rfl, rfl⟩ := Prod.mk.inj (hnone.symm.trans hcommit)
        exact h.noted
      · obtain ⟨rfl, rfl⟩ := Prod.mk.inj (hset.symm.trans hcommit)
        exact (h.noted.use hnodup hget hstep).1

theorem move (hpj : pj.AuthSrvSound) {b : Ledger} (hmove : Move pj a b) (hstored : Stored a)
    (h : FreshNonces a.history → Unreplayed pj a) (hfresh : FreshNonces b.history) :
    Unreplayed pj b := by
  cases hmove with
  | purge now k =>
    have hold := h hfresh
    exact { hold with
      noted := hold.noted.subset (purgeFront_sublist now k a.core.nonces).subset }
  | answer =>
    exact (h hfresh.tail).quiet hfresh rfl (List.Subset.refl _) (h hfresh.tail).noted
  | enter rx p actions core' hstarted hparse hadmitted henters =>
    refine (h hfresh.tail).quiet hfresh rfl ?_ (h hfresh.tail).noted
    rw [henters.core']
    exact List.subset_append_right _ _
  | complete env kept rest p command rx verdict nonces status core' actions hpending hid hcomp =>
    exact (h hfresh.tail).complete hpj hstored hcomp hfresh
  | terminate =>
    refine (h hfresh.tail).quiet hfresh ?_ (List.subset_append_right _ _) (h hfresh.tail).noted
    exact acceptedDigest_of_not_accepts rfl
  | expire =>
    exact (h hfresh.tail).quiet hfresh rfl (List.subset_append_right _ _) (h hfresh.tail).noted
  | finish =>
    exact (h hfresh.tail).quiet hfresh rfl (List.subset_append_right _ _) (h hfresh.tail).noted
  | start => exact { h hfresh with }
  | release =>
    exact (h hfresh.tail).quiet hfresh rfl (List.nil_subset _) (h hfresh.tail).noted

end Unreplayed

/-- Nothing is replayed in a run in which no nonce value is issued twice. -/
theorem run_unreplayed (hpj : pj.AuthSrvSound) (config : Config) (inputs : List Input)
    (hfresh : FreshNonces (run pj config inputs).history) :
    Unreplayed pj (run pj config inputs).ledger := by
  have h : Stored (run pj config inputs).ledger ∧ (FreshNonces (run pj config inputs).ledger.history →
        Unreplayed pj (run pj config inputs).ledger) := by
    apply run_induction (P := fun a => Stored a ∧ (FreshNonces a.history → Unreplayed pj a))
    · refine ⟨List.nil_sublist _, fun _ => ⟨?_, ?_, List.Pairwise.nil⟩⟩
      · exact fun digest hdigest => absurd hdigest List.not_mem_nil
      · exact fun digest hdigest => absurd hdigest List.not_mem_nil
    · rintro a b hmove ⟨hstored, hold⟩
      exact ⟨hstored.move hmove, Unreplayed.move hpj hmove hstored hold⟩
    · rintro a grants ⟨hstored, hold⟩
      exact ⟨hstored, fun hfresh => { hold hfresh with }⟩
  exact h.2 hfresh

/-- The digests in the order of acceptance. -/
theorem acceptedDigests_trace_pairwise {s : Sys} {R : DigestCredential → DigestCredential → Prop}
    (h : (acceptedDigests pj s.history).Pairwise fun later earlier => R earlier later) :
    (acceptedDigests pj s.trace).Pairwise R := by
  unfold acceptedDigests Sys.trace at *
  rw [List.filterMap_reverse, List.pairwise_reverse]
  exact h

/-! ## With `qop` -/

/-- **With `qop`, nonce counts grow.** In every run in which PJSIP repeats no nonce value, of two
digests with `qop` that were accepted through credentials for one nonce, username and `cnonce` the
later one has the larger nonce count. -/
theorem qop_counts_increase {pj : Pjsip} (hpj : pj.AuthSrvSound) (config : Config)
    (inputs : List Input) (hfresh : FreshNonces (run pj config inputs).history) :
    (acceptedDigests pj (run pj config inputs).trace).Pairwise fun d d' =>
      d.qop ≠ [] → d'.qop ≠ [] →
      d.nonce = d'.nonce → d.username = d'.username → d.cnonce = d'.cnonce →
      ∃ n n', parseNonceCount d.nc = some n ∧ parseNonceCount d'.nc = some n' ∧ n < n' := by
  apply acceptedDigests_trace_pairwise
  refine (run_unreplayed hpj config inputs hfresh).apart.imp ?_
  intro later earlier hapart hqop hqop' hnonce husername hcnonce
  refine (hapart hnonce (Prod.ext husername hcnonce)).withQop ?_ ?_
  · exact fun hlen => hqop' (List.length_eq_zero_iff.mp hlen)
  · exact fun hlen => hqop (List.length_eq_zero_iff.mp hlen)

/-- A device that counts up is accepted twice. -/
theorem qop_counts_increase_sample : (acceptedDigests samplePjsip
        (run samplePjsip sampleConfig (sampleInputs [2] [3])).trace).length = 2 ∧
      (acceptedDigests samplePjsip
          (run samplePjsip sampleConfig (sampleInputs [2] [3])).trace).Pairwise fun d d' =>
        d.qop ≠ [] → d'.qop ≠ [] →
        d.nonce = d'.nonce → d.username = d'.username → d.cnonce = d'.cnonce →
        ∃ n n', parseNonceCount d.nc = some n ∧ parseNonceCount d'.nc = some n' ∧ n < n' := by
  have hfresh : FreshNonces (run samplePjsip sampleConfig (sampleInputs [2] [3])).history := by
    decide +kernel
  refine ⟨by decide +kernel, ?_⟩
  exact qop_counts_increase (server_authSrvSound _) sampleConfig _ hfresh

/-! ## What arrives -/

/-- The digest of a packet, if it is a message with a header. -/
def packetDigest (pj : Pjsip) (packet : Bytes) : Option DigestCredential :=
  ((pj.parseRdata packet).bind authHeader).map AuthorizationHdr.digest

/-- The digests of the packets that a list of inputs delivers. -/
def arrivedDigests (pj : Pjsip) (inputs : List Input) : List DigestCredential :=
  (inputs.filterMap Input.delivers).filterMap (packetDigest pj)

section arrivals

variable {pj : Pjsip}

/-- What a run accepts, its inputs delivered. -/
theorem acceptedDigests_arrived (hpj : pj.AuthSrvSound) (config : Config) (inputs : List Input)
    {digest : DigestCredential}
    (hdigest : digest ∈ acceptedDigests pj (run pj config inputs).history) :
    digest ∈ arrivedDigests pj inputs := by
  obtain ⟨r, hr, hsome⟩ := List.mem_filterMap.mp hdigest
  have haccepts : r.accepts = true := by
    by_contra hnot
    rw [acceptedDigest_of_not_accepts (Bool.eq_false_iff.mpr hnot)] at hsome
    cases hsome
  obtain ⟨newer, older, hsplit⟩ := List.append_of_mem hr
  obtain ⟨p, rx, arrival, command, env, verdict, actions, rfl, -, hqueued, hadmitted, -⟩ :=
    (run_sound hpj config inputs).grounds newer r older hsplit haccepts
  have hpacket : p.packet ∈ inputs.filterMap Input.delivers := by
    apply run_queuedPackets config inputs
    rw [hadmitted.packet, hsplit]
    refine List.mem_filterMap.mpr ⟨.queued p rx arrival, ?_, rfl⟩
    exact List.mem_append_right _ (List.mem_cons_of_mem _ hqueued)
  refine List.mem_filterMap.mpr ⟨p.packet, hpacket, ?_⟩
  simp only [Record.acceptedDigest] at hsome
  split_ifs at hsome
  exact hsome

end arrivals

/-! ## Without `qop` -/

/-- Two digests without `qop` are copies as far as the response covers them. -/
def Copies (d d' : DigestCredential) : Prop :=
  d.qop = [] ∧ d'.qop = [] ∧ d.nonce = d'.nonce ∧ d.username = d'.username ∧ d.response = d'.response

/-- **Without `qop`, a response is accepted once if and only if its copies carry one `cnonce`.** The
usage record that remembers it is found by `cnonce`, which the response does not cover. -/
theorem no_qop_once_iff (hpj : pj.AuthSrvSound) (config : Config) (inputs : List Input)
    (hfresh : FreshNonces (run pj config inputs).history) :
    (acceptedDigests pj (run pj config inputs).trace).Pairwise (fun d d' => ¬ Copies d d') ↔
      (acceptedDigests pj (run pj config inputs).trace).Pairwise fun d d' =>
        Copies d d' → d.cnonce = d'.cnonce := by
  have hapart : (acceptedDigests pj (run pj config inputs).trace).Pairwise fun d d' =>
      Copies d d' → d.cnonce ≠ d'.cnonce := by
    apply acceptedDigests_trace_pairwise
    refine (run_unreplayed hpj config inputs hfresh).apart.imp ?_
    rintro later earlier hapart ⟨hqop, hqop', hnonce, husername, -⟩ hcnonce
    refine (hapart hnonce (Prod.ext husername hcnonce)).withoutQop ⟨?_, ?_⟩
    · rw [hqop']
      rfl
    · rw [hqop]
      rfl
  constructor
  · intro honce
    exact honce.imp fun hnot hcopies => absurd hcopies hnot
  · intro hsame
    refine (hsame.and hapart).imp ?_
    rintro d d' ⟨heq, hne⟩ hcopies
    exact hne hcopies (heq hcopies)

/-- The copies of a response that arrive carry one `cnonce`. -/
def OneCnonce (pj : Pjsip) (inputs : List Input) : Prop :=
  ∀ d ∈ arrivedDigests pj inputs, ∀ d' ∈ arrivedDigests pj inputs, Copies d d' → d.cnonce = d'.cnonce

/-- **Without `qop`, a response whose copies carry one `cnonce` is accepted once.** In every run whose
packets meet this and in which PJSIP repeats no nonce value, at most one digest without `qop` is
accepted through credentials for one nonce, username and response. -/
theorem no_qop_accepted_once {pj : Pjsip} (hpj : pj.AuthSrvSound) (config : Config)
    (inputs : List Input) (hfresh : FreshNonces (run pj config inputs).history)
    (hcnonce : OneCnonce pj inputs) :
    (acceptedDigests pj (run pj config inputs).trace).Pairwise fun d d' => ¬ Copies d d' := by
  rw [no_qop_once_iff hpj config inputs hfresh]
  apply acceptedDigests_trace_pairwise
  apply List.pairwise_of_forall_mem_list
  intro later hlater earlier hearlier hcopies
  refine hcnonce earlier ?_ later ?_ hcopies
  · exact acceptedDigests_arrived hpj config inputs hearlier
  · exact acceptedDigests_arrived hpj config inputs hlater

/-- A device that repeats itself is accepted once. -/
theorem no_qop_accepted_once_sample : (acceptedDigests samplePjsip
        (run samplePjsip sampleConfig (sampleInputs [4] [4])).trace).length = 1 ∧
      (acceptedDigests samplePjsip (run samplePjsip sampleConfig (sampleInputs [4] [4])).trace).Pairwise
          fun d d' => ¬ Copies d d' := by
  have harrived : arrivedDigests samplePjsip (sampleInputs [4] [4]) =
      [(digestHdr [9] [6] [] []).digest, (digestHdr [9] [6] [] []).digest] := by
    decide +kernel
  refine ⟨by decide +kernel, ?_⟩
  refine no_qop_accepted_once (server_authSrvSound _) sampleConfig _ (by decide +kernel) ?_
  intro d hd d' hd' _
  rw [← samplePjsip, harrived, List.mem_pair, or_self] at hd hd'
  rw [hd, hd']

/-- **A response without `qop` can be replayed.** A copy that carries another `cnonce` is accepted
again. -/
theorem no_qop_replayed : samplePjsip.AuthSrvSound ∧ samplePjsip.DigestIgnoresCnonce ∧
      FreshNonces (run samplePjsip sampleConfig (sampleInputs [4] [5])).history ∧
      ¬ (acceptedDigests samplePjsip
          (run samplePjsip sampleConfig (sampleInputs [4] [5])).trace).Pairwise
            (fun d d' => ¬ Copies d d') := by
  have haccepted : acceptedDigests samplePjsip
      (run samplePjsip sampleConfig (sampleInputs [4] [5])).trace =
        [(digestHdr [9] [6] [] []).digest, (digestHdr [9] [8] [] []).digest] := by
    decide +kernel
  refine ⟨server_authSrvSound _, server_digestIgnoresCnonce _, by decide +kernel, ?_⟩
  rw [haccepted]
  intro honce
  refine List.rel_of_pairwise_cons honce List.mem_cons_self ?_
  exact ⟨rfl, rfl, rfl, rfl, rfl⟩

end GmvPjsip.Auth
