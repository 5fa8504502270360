import GmvPjsip.Auth.NonceStore

/-!
# Stale nonces

A REGISTER whose nonce has expired is challenged again, and the challenge says whether the nonce was a
good one once. The runtime knows that from the nonces it still stores, which searches and sweeps unlink.

* `nonceStatus_of_expired`: what a search says of a nonce of which no unexpired one is stored.
* `Remembered`: a nonce with that value is stored, expired or not. `not_remembered_of_swept`: a sweep
  forgets the nonces that have expired by then, for good.
* `expired_nonce_stale`: in every run, a REGISTER with an expired nonce is answered 401 with a challenge,
  and the challenge says stale exactly if the nonce is remembered. `swept_nonce_not_stale` is a run in
  which it is not.
-/

namespace GmvPjsip.Auth

open GmvPjsip.Lib

/-- The code of an answer, whether it challenges, and whether the challenge says stale. -/
def Action.answer : Action → Option (ℕ × Bool × Bool)
  | .respond _ code challenge stale _ => some (code, challenge, stale)
  | _ => none

/-- A nonce with that value is stored. -/
def Remembered (rt : Runtime) (nonce : Bytes) : Prop := nonce ∈ rt.authNonces.map AuthNonce.value

instance (rt : Runtime) (nonce : Bytes) : Decidable (Remembered rt nonce) :=
  inferInstanceAs (Decidable (_ ∈ _))

/-! ## Searches -/

/-- A search for a nonce of which no unexpired one is stored tells whether an expired one is. -/
theorem nonceStatus_of_expired {now : ℕ} {nonce : Bytes} {nonces : List AuthNonce}
    (hexpired : ∀ item ∈ nonces, item.value = nonce → item.expiresAtMs ≤ now)
    (matchedExpired : Bool) :
    (nonceStatus now (some nonce) matchedExpired nonces).1 =
      if matchedExpired = true ∨ nonce ∈ nonces.map AuthNonce.value then .expired else .unknown := by
  induction nonces generalizing matchedExpired with
  | nil => simp [nonceStatus]
  | cons item rest ih =>
    have hrest := ih fun item hitem => hexpired item (List.mem_cons_of_mem _ hitem)
    unfold nonceStatus
    by_cases hover : item.expiresAtMs ≤ now
    · rw [if_pos hover, hrest]
      simp [or_assoc]
    · have hother : nonce ≠ item.value := fun heq =>
        hover (hexpired item List.mem_cons_self heq.symm)
      have hskip : ¬(some nonce = some item.value) := fun heq => hother (Option.some.inj heq)
      simp only [if_neg hover, if_neg hskip]
      rw [hrest]
      simp [hother]

/-- A sweep leaves the nonces that have not expired. -/
theorem nonceStatus_none (now : ℕ) (matchedExpired : Bool) (nonces : List AuthNonce) :
    (nonceStatus now none matchedExpired nonces).2 = nonces.filter (now < ·.expiresAtMs) := by
  induction nonces generalizing matchedExpired with
  | nil => rfl
  | cons item rest ih =>
    unfold nonceStatus
    by_cases hover : item.expiresAtMs ≤ now
    · rw [if_pos hover, ih]
      simp [Nat.not_lt.mpr hover]
    · rw [if_neg hover]
      simp [ih, Nat.not_le.mp hover]

/-! ## Runs -/

section runs

variable (pj : Pjsip) (config : Config)

/-- The nonces that a run stores are among those it issued. -/
theorem stored_run (inputs : List Input) : Stored (run pj config inputs).ledger :=
  run_induction (P := Stored) (List.nil_sublist _) (fun _ _ => Stored.move) (fun _ _ h => h) inputs

/-- A run does not change the settings. -/
theorem config_run (inputs : List Input) : (run pj config inputs).runtime.config = config := by
  refine run_induction (P := fun a => a.core.config = config) rfl ?_ (fun _ _ h => h) inputs
  intro a b hmove ha
  cases hmove with
  | enter rx p actions core' hstarted hparse hadmitted henters =>
    rw [henters.core']
    exact ha
  | complete env kept rest p command rx verdict nonces status core' actions hpending hid hcomp =>
    rw [hcomp.core']
    exact ha
  | purge | answer | terminate | expire | finish | start | release => exact ha

variable {pj config}

/-- What is stored, and not old, was issued in between. -/
theorem Grows.remembered {a b : Ledger} (h : Grows a b) {nonce : Bytes}
    {new : List (Bytes × ℕ)} (hnew : issues b.history = new ++ issues a.history)
    (hmem : nonce ∈ b.core.nonces.map AuthNonce.value) :
    (∃ t, (nonce, t) ∈ new) ∨ nonce ∈ a.core.nonces.map AuthNonce.value := by
  obtain ⟨new', hissues, hnonces⟩ := h
  obtain rfl : new' = new := List.append_cancel_right (hissues.symm.trans hnew)
  obtain ⟨item, hitem, rfl⟩ := List.mem_map.mp hmem
  rcases List.mem_append.mp (hnonces.subset (List.mem_map_of_mem hitem)) with hissued | hold
  · obtain ⟨⟨value, t⟩, hissue, hstamp⟩ := List.mem_map.mp hissued
    obtain rfl : value = item.value := (Prod.mk.inj hstamp).1
    exact Or.inl ⟨t, hissue⟩
  · obtain ⟨old, hold, hstamp⟩ := List.mem_map.mp hold
    exact Or.inr (List.mem_map.mpr ⟨old, hold, (Prod.mk.inj hstamp).1⟩)

/-- **A sweep forgets what has expired.** A nonce that has expired when a poll sweeps is not remembered
at any later time, unless it is issued again. -/
theorem not_remembered_of_swept {before after : List Input} {now purgeNow : ℕ} {env : ℕ → SendEnv}
    {nonce : Bytes} {new : List (Bytes × ℕ)}
    (hstarted : (run pj config before).runtime.started = true)
    (hdue : (run pj config before).runtime.nonceCleanupAtMs ≤ now)
    (hexpired : ∀ t, (nonce, t) ∈ issues (run pj config before).history → t + nonceTtlMs ≤ purgeNow)
    (hnew : issues (run pj config (before ++ .authTimeouts now purgeNow env :: after)).history =
      new ++ issues (run pj config before).history)
    (hagain : ∀ t, (nonce, t) ∉ new) :
    ¬Remembered (run pj config (before ++ .authTimeouts now purgeNow env :: after)).runtime nonce := by
  have hstored := stored_run pj config before
  rw [run_append, List.foldl_cons] at hnew ⊢
  generalize run pj config before = s at hstarted hdue hexpired hnew hstored ⊢
  -- the list behind the sweep, and all that follows it
  have hcleaned : nonce ∉ (cleanupNonces now purgeNow s.runtime).authNonces.map AuthNonce.value := by
    rw [cleanupNonces, if_pos hdue]
    simp only [nonceStatus_none]
    intro hmem
    obtain ⟨item, hitem, rfl⟩ := List.mem_map.mp hmem
    obtain ⟨hstays, hlive⟩ := List.mem_filter.mp hitem
    obtain ⟨t, hissued, hexpiry⟩ := hstored.issued hstays
    exact absurd (Nat.le_trans hexpiry (hexpired t hissued)) (Nat.not_le.mpr (of_decide_eq_true hlive))
  have hstep : step pj s (.authTimeouts now purgeNow env) =
      processAuthTimeouts pj now purgeNow env s := if_pos hstarted
  rw [hstep] at hnew ⊢
  have hrest : Grows { s with runtime := cleanupNonces now purgeNow s.runtime : Sys }.ledger
      (after.foldl (step pj) (processAuthTimeouts pj now purgeNow env s)).ledger := by
    refine Grows.edits (Relation.ReflTransGen.trans ?_ (inputs_edits after _))
    exact Relation.ReflTransGen.mono (fun _ _ hmove => Edit.move hmove) _ _
      (processAuthTimeouts_swept now purgeNow env s)
  intro hremembered
  rcases hrest.remembered hnew hremembered with ⟨t, hissued⟩ | hold
  · exact hagain t hissued
  · exact hcleaned hold

end runs

/-! ## Answers -/

/-- An immediate answer has the code and the flags it is asked for. -/
theorem answerRegister_answer (env : RegisterEnv) (rt : Runtime) (code : ℕ) (challenge stale : Bool) :
    (answerRegister env rt code challenge stale).2.2.filterMap Action.answer =
      [(code, challenge, stale)] := by
  obtain ⟨status, issue, hresult, hissue⟩ :=
    sendResponse_spec env.send rt none code challenge stale
  unfold answerRegister
  rw [hresult]
  rcases hissue with rfl | ⟨-, rfl⟩ <;> rfl

/-- A REGISTER that passes the checks is challenged if no unexpired nonce is stored for it, and the
challenge says stale if an expired one is. -/
theorem handleRegister_of_expired {pj : Pjsip} {env : RegisterEnv} {rt : Runtime} {transaction : ℕ}
    {rx : RxData} {auth : AuthorizationHdr}
    (hdevice : 0 < (registerDeviceId rx.msg).length ∧
      (registerDeviceId rx.msg).length < deviceIdCapacity)
    (hauth : authHeader rx.msg = some auth) (hchecks : ArrivalChecks pj rt.config rx.msg auth)
    (hexpired : ∀ item ∈ rt.authNonces, item.value = auth.digest.nonce → item.expiresAtMs ≤ env.now) :
    (handleRegister pj env rt transaction rx).2.2.filterMap Action.answer =
      [(401, true, decide (Remembered rt auth.digest.nonce))] := by
  have hlength : ¬((registerDeviceId rx.msg).length = 0 ∨
      deviceIdCapacity ≤ (registerDeviceId rx.msg).length) := by omega
  unfold handleRegister
  simp only [if_neg hlength, hauth, hchecks.scheme, hchecks.realm, hchecks.shape, Bool.not_true,
    Bool.false_eq_true, if_false, ne_eq, not_true_eq_false]
  by_cases hmem : Remembered rt auth.digest.nonce
  · have hstatus := (nonceStatus_of_expired hexpired false).trans (if_pos (Or.inr hmem))
    rw [hstatus, decide_eq_true hmem, if_pos (by decide)]
    exact answerRegister_answer env _ 401 true true
  · have hstatus := (nonceStatus_of_expired hexpired false).trans
      (if_neg (not_or.mpr ⟨Bool.false_ne_true, hmem⟩))
    rw [hstatus, decide_eq_false hmem, if_pos (by decide)]
    exact answerRegister_answer env _ 401 true false

/-- **An expired nonce is answered as stale exactly if it is remembered.** In every run, for every
well-formed Digest REGISTER whose nonce was issued, if ever, at least 300 seconds ago: it is answered 401
with a challenge, and the challenge says stale exactly if the nonce is still stored. A nonce that was
never issued is not; nor is one that had expired when a poll swept the nonces, unless it was issued again
since. -/
theorem expired_nonce_stale (pj : Pjsip) (config : Config) (inputs : List Input) (env : RegisterEnv)
    (transaction : ℕ) (rx : RxData) (auth : AuthorizationHdr)
    (hdevice : 0 < (registerDeviceId rx.msg).length ∧
      (registerDeviceId rx.msg).length < deviceIdCapacity)
    (hauth : authHeader rx.msg = some auth) (hchecks : ArrivalChecks pj config rx.msg auth)
    (hexpired : ∀ t, (auth.digest.nonce, t) ∈ issues (run pj config inputs).history →
      t + 300000 ≤ env.now) :
    (handleRegister pj env (run pj config inputs).runtime transaction rx).2.2.filterMap Action.answer =
      [(401, true, decide (Remembered (run pj config inputs).runtime auth.digest.nonce))] ∧
    ((∀ t, (auth.digest.nonce, t) ∉ issues (run pj config inputs).history) →
      ¬Remembered (run pj config inputs).runtime auth.digest.nonce) ∧
    ∀ before now purgeNow sends after new,
      inputs = before ++ .authTimeouts now purgeNow sends :: after →
      (run pj config before).runtime.started = true →
      (run pj config before).runtime.nonceCleanupAtMs ≤ now →
      (∀ t, (auth.digest.nonce, t) ∈ issues (run pj config before).history → t + 300000 ≤ purgeNow) →
      issues (run pj config inputs).history = new ++ issues (run pj config before).history →
      (∀ t, (auth.digest.nonce, t) ∉ new) →
      ¬Remembered (run pj config inputs).runtime auth.digest.nonce := by
  have hstored := stored_run pj config inputs
  refine ⟨?_, ?_, ?_⟩
  · refine handleRegister_of_expired hdevice hauth ?_ ?_
    · rw [config_run]
      exact hchecks
    · intro item hitem hvalue
      obtain ⟨t, hissued, hexpiry⟩ := hstored.issued hitem
      rw [hvalue] at hissued
      exact Nat.le_trans hexpiry (hexpired t hissued)
  · intro hnever hremembered
    obtain ⟨item, hitem, hvalue⟩ := List.mem_map.mp hremembered
    obtain ⟨t, hissued, -⟩ := hstored.issued hitem
    rw [hvalue] at hissued
    exact hnever t hissued
  · rintro before now purgeNow sends after new rfl hstarted hdue hswept hnew hagain
    exact not_remembered_of_swept hstarted hdue hswept hnew hagain

/-- A REGISTER without a header is challenged with the nonce `[9]` at time 10. -/
def challenging : List Input := .start .success :: Input.round [9] 10 [1] 1 .credential

theorem issues_challenging :
    issues (run samplePjsip sampleConfig challenging).history = [([9], 10)] := by
  decide +kernel

/-- A REGISTER with the nonce `[9]`, and what it meets at time 300010. -/
def lateRegister : RxData :=
  ⟨⟨.udp, 1, [], 5060⟩, [4], registerMsg [digestHdr [9] [6] [] []] [3] 2 60⟩

def lateEnv : RegisterEnv :=
  ⟨300010, ⟨true, true, .success, .success, .success, 300010⟩, .ok [] 300010⟩

/-- It comes before any sweep. -/
theorem expired_nonce_stale_unswept :
    (handleRegister samplePjsip lateEnv (run samplePjsip sampleConfig challenging).runtime 1
      lateRegister).2.2.filterMap Action.answer = [(401, true, true)] := by
  have hanswer := (expired_nonce_stale samplePjsip sampleConfig challenging lateEnv 1 lateRegister
    (digestHdr [9] [6] [] []) (by decide +kernel) rfl
    ⟨by decide +kernel, by decide +kernel, by decide +kernel⟩ (by
      rw [issues_challenging]
      intro t ht
      obtain rfl := (Prod.mk.inj (List.mem_singleton.mp ht)).2
      decide)).1
  rwa [decide_eq_true (by decide +kernel)] at hanswer

/-- A poll has swept the nonces at the time of its expiry: the nonce was issued by the runtime and has
expired, and the challenge does not say stale. -/
theorem swept_nonce_not_stale :
    let swept := run samplePjsip sampleConfig
      (challenging ++ [.authTimeouts 300010 300010 fun _ => .ok [] 300010])
    issues swept.history = [([9], 10)] ∧
      (handleRegister samplePjsip lateEnv swept.runtime 1 lateRegister).2.2.filterMap Action.answer =
        [(401, true, false)] := by
  decide +kernel

end GmvPjsip.Auth
