import GmvPjsip.Auth.Soundness
import GmvPjsip.Lib.Clock
import Mathlib.Data.List.Induction

/-!
# Nonces are valid for as long as they should be

Nobody looks for nonces that have expired: a search unlinks those it passes, and once a second one
passes them all. Whether a nonce is valid does not depend on what was unlinked when.

* `NonceOp` is what happens to the list of nonces and `nonceStore` the list behind a run.
* `nonceStatus_valid_iff`: a search finds an unexpired nonce exactly if the list has one.
* `Stocked` is the invariant: what is stored was issued, and what was issued is stored until it expires.
* `nonce_validity_exact`: in every run with a clock that does not go back, a nonce is valid exactly for
  300 seconds from its issue, and searches and sweeps unlink no unexpired nonce and write to none.
-/

namespace GmvPjsip.Auth

open GmvPjsip.Lib

/-- The nonces of a runtime, and when they are swept next. -/
structure NonceStore where
  nonces : List AuthNonce
  cleanupAtMs : ℕ
  deriving DecidableEq, Repr

/-- What happens to the nonces, with the readings of the clock. -/
inductive NonceOp
  /-- `gmv_issue_nonce`. -/
  | issue (callocOk : Bool) (value : Bytes) (now : ℕ)
  /-- `gmv_nonce_status` for a REGISTER. -/
  | query (now : ℕ) (nonce : Bytes)
  /-- `gmv_process_auth_timeouts`. -/
  | timeouts (now purgeNow : ℕ)
  /-- `gmv_commit_nonce_usage`. -/
  | use (now : ℕ) (callocOk : Bool) (digest : DigestCredential)

namespace NonceOp

/-- The readings of the clock, in order. -/
def readings : NonceOp → List ℕ
  | issue _ _ now => [now]
  | query now _ => [now]
  | timeouts now purgeNow => [now, purgeNow]
  | use now _ _ => [now]

/-- When the operation searches the list. -/
def searchesAt : NonceOp → Option ℕ
  | query now _ => some now
  | timeouts _ purgeNow => some purgeNow
  | _ => none

/-- The expiry of a nonce that is issued fits a `uint64_t`. -/
def ExpiryFits : NonceOp → Prop
  | issue _ _ now => now + nonceTtlMs < 2 ^ 64
  | _ => True

instance : DecidablePred ExpiryFits := fun op => by
  cases op <;> unfold ExpiryFits <;> infer_instance

end NonceOp

/-- What an operation does to the nonces. -/
def NonceStore.step (s : NonceStore) : NonceOp → NonceStore
  | .issue callocOk value now =>
    if callocOk then { s with nonces := issueNonce value now :: s.nonces } else s
  | .query now nonce => { s with nonces := (nonceStatus now (some nonce) false s.nonces).2 }
  | .timeouts now purgeNow =>
    if s.cleanupAtMs ≤ now then ⟨(nonceStatus purgeNow none false s.nonces).2, u64 (now + 1000)⟩
    else s
  | .use now callocOk digest => { s with nonces := (commitNonceUsage now callocOk digest s.nonces).2 }

/-- The nonces behind a run, which starts without any. -/
def nonceStore (ops : List NonceOp) : NonceStore := ops.foldl .step ⟨[], 0⟩

/-- The part of a runtime that `NonceStore` is. -/
def Runtime.nonceStore (rt : Runtime) : NonceStore := ⟨rt.authNonces, rt.nonceCleanupAtMs⟩

/-- The sweep of a runtime is that of its nonces. -/
theorem cleanupNonces_nonceStore (now purgeNow : ℕ) (rt : Runtime) :
    (cleanupNonces now purgeNow rt).nonceStore = rt.nonceStore.step (.timeouts now purgeNow) := by
  unfold cleanupNonces NonceStore.step
  by_cases hdue : rt.nonceCleanupAtMs ≤ now
  · rw [if_pos hdue]
    exact (if_pos hdue).symm
  · rw [if_neg hdue]
    exact (if_neg hdue).symm

theorem nonceStore_append (ops : List NonceOp) (op : NonceOp) :
    nonceStore (ops ++ [op]) = (nonceStore ops).step op := by
  rw [nonceStore, List.foldl_append]
  rfl

/-! ## Searches -/

/-- A search finds an unexpired nonce exactly if the list has one. -/
theorem nonceStatus_valid_iff {now : ℕ} {nonce : Bytes} {matchedExpired : Bool}
    {nonces : List AuthNonce} :
    (nonceStatus now (some nonce) matchedExpired nonces).1 = .valid ↔
      ∃ item ∈ nonces, item.value = nonce ∧ now < item.expiresAtMs := by
  induction nonces generalizing matchedExpired with
  | nil =>
    unfold nonceStatus
    cases matchedExpired <;> simp
  | cons item rest ih =>
    unfold nonceStatus
    by_cases hexpired : item.expiresAtMs ≤ now
    · rw [if_pos hexpired, ih]
      simp [Nat.not_lt.mpr hexpired]
    · by_cases hmatch : nonce = item.value
      · rw [if_neg hexpired]
        simp [hmatch, Nat.not_le.mp hexpired]
      · have hother : item.value ≠ nonce := Ne.symm hmatch
        have hskip : ¬(some nonce = some item.value) := fun h => hmatch (Option.some.inj h)
        simp only [if_neg hexpired, if_neg hskip]
        rw [ih]
        simp [hother]

/-- What a search removes has expired. -/
theorem mem_purgeFront {now k : ℕ} {nonces : List AuthNonce} {item : AuthNonce}
    (hitem : item ∈ nonces) (hlive : now < item.expiresAtMs) : item ∈ purgeFront now k nonces := by
  rw [← List.take_append_drop k nonces] at hitem
  rcases List.mem_append.mp hitem with hfront | hback
  · exact List.mem_append_left _ (List.mem_filter.mpr ⟨hfront, decide_eq_true hlive⟩)
  · exact List.mem_append_right _ hback

/-- A search unlinks nonces that have expired by then, or does nothing. -/
theorem step_search {s : NonceStore} {op : NonceOp} {now : ℕ} (hop : op.searchesAt = some now) :
    (s.step op).nonces = s.nonces ∨ ∃ k, (s.step op).nonces = purgeFront now k s.nonces := by
  cases op with
  | issue | use => cases hop
  | query time nonce =>
    obtain rfl := Option.some.inj hop
    exact Or.inr (nonceStatus_snd time (some nonce) false s.nonces)
  | timeouts time purgeNow =>
    obtain rfl := Option.some.inj hop
    unfold NonceStore.step
    by_cases hdue : s.cleanupAtMs ≤ time
    · simp only [if_pos hdue]
      exact Or.inr (nonceStatus_snd purgeNow none false s.nonces)
    · exact Or.inl (congrArg NonceStore.nonces (if_neg hdue))

/-- Nonces that are left after a search are what they were, and an unexpired one is left. -/
theorem step_search_keeps {s : NonceStore} {op : NonceOp} {now : ℕ} (hop : op.searchesAt = some now) :
    (s.step op).nonces.Sublist s.nonces ∧
      ∀ item ∈ s.nonces, now < item.expiresAtMs → item ∈ (s.step op).nonces := by
  rcases step_search (s := s) hop with hsame | ⟨k, hpurged⟩
  · rw [hsame]
    exact ⟨List.Sublist.refl _, fun item hitem _ => hitem⟩
  · rw [hpurged]
    exact ⟨purgeFront_sublist now k s.nonces, fun item hitem hlive => mem_purgeFront hitem hlive⟩

/-! ## What is stored -/

/-- What is stored was issued, and what was issued is stored until it expires. -/
structure Stocked (ops : List NonceOp) : Prop where
  issued : ∀ item ∈ (nonceStore ops).nonces, ∃ issuedAt, .issue true item.value issuedAt ∈ ops ∧
    item.expiresAtMs = issuedAt + nonceTtlMs
  stored : ∀ value issuedAt, .issue true value issuedAt ∈ ops →
    ∀ now, Clock.Reached NonceOp.readings ops now → now < issuedAt + nonceTtlMs →
      ∃ item ∈ (nonceStore ops).nonces, item.value = value ∧ item.expiresAtMs = issuedAt + nonceTtlMs

namespace Stocked

variable {before : List NonceOp} {op : NonceOp}

/-- An operation that issues nothing keeps the invariant if what it leaves are stored nonces, and all of
those that have not expired. -/
theorem keep (h : Stocked before) (hissue : ∀ value now, op ≠ .issue true value now)
    (hsub : ∀ item ∈ (nonceStore (before ++ [op])).nonces,
      ∃ old ∈ (nonceStore before).nonces, old.stamp = item.stamp)
    (hlive : ∀ old ∈ (nonceStore before).nonces,
      ∀ now, Clock.Reached NonceOp.readings (before ++ [op]) now → now < old.expiresAtMs →
        ∃ item ∈ (nonceStore (before ++ [op])).nonces, item.stamp = old.stamp) :
    Stocked (before ++ [op]) := by
  constructor
  · intro item hitem
    obtain ⟨old, hold, hstamp⟩ := hsub item hitem
    obtain ⟨hvalue, hexpires⟩ := Prod.mk.inj hstamp
    obtain ⟨issuedAt, hissued, hexpiry⟩ := h.issued old hold
    rw [hvalue] at hissued
    exact ⟨issuedAt, List.mem_append_left _ hissued, hexpires ▸ hexpiry⟩
  · intro value issuedAt hissued now hreached hnow
    have hearlier : .issue true value issuedAt ∈ before := by
      rcases List.mem_append.mp hissued with hbefore | hop
      · exact hbefore
      · exact absurd (List.mem_singleton.mp hop).symm (hissue value issuedAt)
    obtain ⟨old, hold, rfl, hexpires⟩ := h.stored value issuedAt hearlier now hreached.of_append hnow
    rw [← hexpires] at hnow ⊢
    obtain ⟨item, hitem, hstamp⟩ := hlive old hold now hreached hnow
    obtain ⟨hvalue, hexpiry⟩ := Prod.mk.inj hstamp
    exact ⟨item, hitem, hvalue, hexpiry⟩

/-- A search keeps it. -/
theorem search (h : Stocked before) {reading : ℕ} (hop : op.searchesAt = some reading)
    (hreading : reading ∈ op.readings) : Stocked (before ++ [op]) := by
  obtain ⟨hsub, hkeeps⟩ := step_search_keeps (s := nonceStore before) hop
  rw [← nonceStore_append] at hsub hkeeps
  refine h.keep ?_ (fun item hitem => ⟨item, hsub.subset hitem, rfl⟩) ?_
  · rintro value now rfl
    cases hop
  · intro old hold now hreached hnow
    have hle : reading ≤ now :=
      hreached.of_mem (List.mem_append_right _ List.mem_cons_self) hreading
    exact ⟨old, hkeeps old hold (Nat.lt_of_le_of_lt hle hnow), rfl⟩

/-- The use of a nonce keeps it. -/
theorem use (h : Stocked before) (now : ℕ) (callocOk : Bool) (digest : DigestCredential) :
    Stocked (before ++ [.use now callocOk digest]) := by
  have hstamps := map_stamp_commitNonceUsage now callocOk digest (nonceStore before).nonces
  have hstep : (nonceStore (before ++ [.use now callocOk digest])).nonces =
      (commitNonceUsage now callocOk digest (nonceStore before).nonces).2 := by
    rw [nonceStore_append]
    rfl
  rw [← hstep] at hstamps
  refine h.keep (fun _ _ hop => by cases hop) ?_ ?_
  · intro item hitem
    exact List.mem_map.mp (hstamps ▸ List.mem_map_of_mem hitem)
  · intro old hold now _ _
    exact List.mem_map.mp (hstamps.symm ▸ List.mem_map_of_mem hold)

/-- Issuing a nonce keeps it. -/
theorem issue (h : Stocked before) {value : Bytes} {now : ℕ} (hfits : now + nonceTtlMs < 2 ^ 64) :
    Stocked (before ++ [.issue true value now]) := by
  have hstep : (nonceStore (before ++ [.issue true value now])).nonces =
      issueNonce value now :: (nonceStore before).nonces := by
    rw [nonceStore_append]
    rfl
  have hexpiry : (issueNonce value now).expiresAtMs = now + nonceTtlMs := u64_of_lt hfits
  constructor
  · intro item hitem
    rw [hstep] at hitem
    rcases List.mem_cons.mp hitem with rfl | hold
    · exact ⟨now, List.mem_append_right _ List.mem_cons_self, hexpiry⟩
    · obtain ⟨issuedAt, hissued, hexpires⟩ := h.issued item hold
      exact ⟨issuedAt, List.mem_append_left _ hissued, hexpires⟩
  · intro value' issuedAt hissued time hreached htime
    rw [hstep]
    rcases List.mem_append.mp hissued with hbefore | hop
    · obtain ⟨item, hitem, hrest⟩ := h.stored value' issuedAt hbefore time hreached.of_append htime
      exact ⟨item, List.mem_cons_of_mem _ hitem, hrest⟩
    · obtain ⟨-, rfl, rfl⟩ := NonceOp.issue.inj (List.mem_singleton.mp hop)
      exact ⟨issueNonce value' issuedAt, List.mem_cons_self, rfl, hexpiry⟩

/-- An issue without memory changes nothing. -/
theorem issue_failed (h : Stocked before) (value : Bytes) (now : ℕ) :
    Stocked (before ++ [.issue false value now]) := by
  have hstep : nonceStore (before ++ [.issue false value now]) = nonceStore before := by
    rw [nonceStore_append]
    rfl
  refine h.keep (fun _ _ hop => by cases hop) ?_ ?_
  · intro item hitem
    exact ⟨item, hstep ▸ hitem, rfl⟩
  · intro old hold now _ _
    exact ⟨old, hstep.symm ▸ hold, rfl⟩

end Stocked

/-- **Every run stores what it issued until that expires.** -/
theorem stocked_run {ops : List NonceOp} (hfits : ∀ op ∈ ops, op.ExpiryFits) : Stocked ops := by
  induction ops using List.reverseRecOn with
  | nil => exact ⟨fun item hitem => absurd hitem List.not_mem_nil,
      fun value issuedAt hissued => absurd hissued List.not_mem_nil⟩
  | append_singleton before op ih =>
    have hbefore : Stocked before := ih fun op hop => hfits op (List.mem_append_left _ hop)
    have hop := hfits op (List.mem_append_right _ List.mem_cons_self)
    cases op with
    | issue callocOk value now =>
      cases callocOk with
      | true => exact hbefore.issue hop
      | false => exact hbefore.issue_failed value now
    | query => exact hbefore.search rfl List.mem_cons_self
    | timeouts =>
      exact hbefore.search rfl (List.mem_cons_of_mem _ List.mem_cons_self)
    | use now callocOk digest => exact hbefore.use now callocOk digest

/-! ## Validity -/

/-- **A nonce is valid exactly for 300 seconds from its issue.** In every run of issues, searches, sweeps
and uses with a clock that does not go back, where the expiries fit a `uint64_t`: whatever was unlinked
before, a nonce is found valid exactly if one with that value was issued less than 300 seconds ago. A
search or a sweep leaves every nonce that has not expired at its time, and those it leaves are what they
were, with their usage records. -/
theorem nonce_validity_exact (ops : List NonceOp) (hclock : Clock.Runs NonceOp.readings ops)
    (hfits : ∀ op ∈ ops, op.ExpiryFits) :
    (∀ before now nonce after, ops = before ++ .query now nonce :: after →
      ((nonceStatus now (some nonce) false (nonceStore before).nonces).1 = .valid ↔
        ∃ issuedAt, .issue true nonce issuedAt ∈ before ∧ now < issuedAt + 300000)) ∧
    ∀ before op now after, ops = before ++ op :: after → op.searchesAt = some now →
      (nonceStore (before ++ [op])).nonces.Sublist (nonceStore before).nonces ∧
      ∀ item ∈ (nonceStore before).nonces, now < item.expiresAtMs →
        item ∈ (nonceStore (before ++ [op])).nonces := by
  refine ⟨?_, ?_⟩
  · rintro before now nonce after rfl
    have hstocked : Stocked before :=
      stocked_run fun op hop => hfits op (List.mem_append_left _ hop)
    have hreached : Clock.Reached NonceOp.readings before now := hclock.reached List.mem_cons_self
    rw [nonceStatus_valid_iff]
    constructor
    · rintro ⟨item, hitem, rfl, hlive⟩
      obtain ⟨issuedAt, hissued, hexpires⟩ := hstocked.issued item hitem
      exact ⟨issuedAt, hissued, hexpires ▸ hlive⟩
    · rintro ⟨issuedAt, hissued, hlive⟩
      obtain ⟨item, hitem, hvalue, hexpires⟩ := hstocked.stored nonce issuedAt hissued now hreached hlive
      exact ⟨item, hitem, hvalue, hexpires ▸ hlive⟩
  · intro before op now after _ hop
    rw [nonceStore_append]
    exact step_search_keeps hop

/-- A nonce that is asked for after a sweep and the issue of another one. -/
theorem nonce_validity_exact_sample : (nonceStatus 300000 (some [1]) false
      (nonceStore [.issue true [1] 1, .timeouts 5 5, .issue true [2] 6]).nonces).1 = .valid :=
  ((nonce_validity_exact [.issue true [1] 1, .timeouts 5 5, .issue true [2] 6, .query 300000 [1]]
    (by decide) (by decide)).1 [.issue true [1] 1, .timeouts 5 5, .issue true [2] 6] 300000 [1] []
    rfl).mpr ⟨1, List.mem_cons_self, by decide⟩

/-- The expiry of a nonce wraps around: one that is issued at the end of the clock is never valid. -/
theorem nonce_expiry_wraps :
    nonceStatus (2 ^ 64 - 1) (some [1]) false (nonceStore [.issue true [1] (2 ^ 64 - 1)]).nonces =
      (.expired, []) := by
  decide +kernel

end GmvPjsip.Auth
