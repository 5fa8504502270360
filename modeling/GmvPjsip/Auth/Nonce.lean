import GmvPjsip.Lib.Keyed
import GmvPjsip.Auth.Message

/-!
# Nonces and their use

The list `auth_nonces`, with the usage records of every nonce. A nonce is issued at the front of
the list, removed once a search meets it behind its expiry, and used by a digest that was verified.

* `nonceStatus`, `issueNonce` and `commitNonceUsage` are the shim's functions on the list.
* `nonceStatus_snd`: a search removes the expired nonces in front of the one it finds and no other.
* `UsageStep` is what a verified digest does to its nonce: the record of its username and `cnonce`
  is used, and no other record changes. `commitNonceUsage_cases`: a list takes one such step on an
  unexpired nonce or stays as it is.
* `useRecord_of_qop`, `useRecord_of_no_qop`: a record is used with a growing count, and only once
  without `qop`.
-/

namespace GmvPjsip.Auth

open GmvPjsip.Lib

/-- `GMV_SIP_DEVICE_ID_CAPACITY`. -/
def deviceIdCapacity : ℕ := 128

/-- `GMV_SIP_NONCE_TTL_MS`. -/
def nonceTtlMs : ℕ := 300000

/-- A `gmv_nonce_usage_t`. -/
structure NonceUsage where
  username : Bytes
  cnonce : Bytes
  lastNc : ℕ
  usedWithoutQop : Bool
  deriving DecidableEq, Repr

/-- A `gmv_auth_nonce_t`. -/
structure AuthNonce where
  value : Bytes
  expiresAtMs : ℕ
  usageCount : ℕ
  usages : List NonceUsage
  deriving DecidableEq, Repr

/-- What a usage record is found by. -/
def NonceUsage.key (usage : NonceUsage) : Bytes × Bytes := (usage.username, usage.cnonce)

/-- What a digest looks its usage record up by. -/
def DigestCredential.usageKey (digest : DigestCredential) : Bytes × Bytes :=
  (digest.username, digest.cnonce)

/-! ## The code -/

/-- The result of `gmv_nonce_status`: 1, 0 or -1. -/
inductive NonceStatus
  | valid
  | unknown
  | expired
  deriving DecidableEq, Repr

/-- Look a nonce up and unlink the expired nonces on the way; `none` only unlinks.
Source: `shim_auth.inc`, `gmv_nonce_status` -/
def nonceStatus (now : ℕ) (nonce : Option Bytes) : Bool → List AuthNonce → NonceStatus × List AuthNonce
  | matchedExpired, [] => (if matchedExpired then .expired else .unknown, [])
  | matchedExpired, item :: rest =>
    let matched := nonce = some item.value
    if item.expiresAtMs ≤ now then nonceStatus now nonce (matchedExpired || matched) rest
    else if matched then (.valid, item :: rest)
    else
      let (status, rest') := nonceStatus now nonce matchedExpired rest
      (status, item :: rest')

/-- The item that `gmv_issue_nonce` puts in front of the list.
Source: `shim_auth.inc`, `gmv_issue_nonce` -/
def issueNonce (value : Bytes) (now : ℕ) : AuthNonce where
  value := value
  expiresAtMs := u64 (now + nonceTtlMs)
  usageCount := 0
  usages := []

/-- The usage record of a digest and the nonce with that record in it; a new record where there is
none yet, at most 64 for a nonce.
Source: `shim_auth.inc`, `gmv_commit_nonce_usage` -/
def findUsage (callocOk : Bool) (digest : DigestCredential) (nonce : AuthNonce) :
    Option (NonceUsage × AuthNonce) :=
  match Keyed.get NonceUsage.key digest.usageKey nonce.usages with
  | some usage => some (usage, nonce)
  | none =>
    if 64 ≤ nonce.usageCount then none
    else if !callocOk then none
    else do
      let username ← copyView deviceIdCapacity (.bytes digest.username)
      let cnonce ← copyView deviceIdCapacity (.bytes digest.cnonce)
      let usage : NonceUsage := ⟨username, cnonce, 0, false⟩
      return (usage, { nonce with
        usages := usage :: nonce.usages
        usageCount := nonce.usageCount + 1 })

/-- Use a record: once without `qop`, with a growing nonce count otherwise.
Source: `shim_auth.inc`, `gmv_commit_nonce_usage` -/
def useRecord (digest : DigestCredential) (usage : NonceUsage) : Bool × NonceUsage :=
  if digest.qop.length = 0 then
    if usage.usedWithoutQop then (false, usage)
    else (true, { usage with usedWithoutQop := true })
  else match parseNonceCount digest.nc with
    | none => (false, usage)
    | some nonceCount =>
      if nonceCount ≤ usage.lastNc then (false, usage)
      else (true, { usage with lastNc := nonceCount })

/-- Record the use of a nonce by a verified digest.
Source: `shim_auth.inc`, `gmv_commit_nonce_usage` -/
def commitNonceUsage (now : ℕ) (callocOk : Bool) (digest : DigestCredential)
    (nonces : List AuthNonce) : Bool × List AuthNonce :=
  match Keyed.get AuthNonce.value digest.nonce nonces with
  | none => (false, nonces)
  | some nonce =>
    if nonce.expiresAtMs ≤ now then (false, nonces)
    else match findUsage callocOk digest nonce with
      | none => (false, nonces)
      | some (usage, nonce') =>
        let (used, usage') := useRecord digest usage
        let usages := Keyed.set NonceUsage.key digest.usageKey usage' nonce'.usages
        (used, Keyed.set AuthNonce.value digest.nonce { nonce' with usages := usages } nonces)

/-! ## Searching the list -/

/-- What a search removes: the expired nonces among the first `k`. -/
def purgeFront (now k : ℕ) (nonces : List AuthNonce) : List AuthNonce :=
  (nonces.take k).filter (now < ·.expiresAtMs) ++ nonces.drop k

theorem purgeFront_sublist (now k : ℕ) (nonces : List AuthNonce) :
    (purgeFront now k nonces).Sublist nonces := by
  have h := (List.filter_sublist (p := (now < ·.expiresAtMs)) (l := nonces.take k)).append
    (List.Sublist.refl (nonces.drop k))
  rwa [List.take_append_drop] at h

/-- A search keeps every nonce that has not expired, and everything behind the one it finds. -/
theorem nonceStatus_snd (now : ℕ) (nonce : Option Bytes) (matchedExpired : Bool)
    (nonces : List AuthNonce) :
    ∃ k, (nonceStatus now nonce matchedExpired nonces).2 = purgeFront now k nonces := by
  induction nonces generalizing matchedExpired with
  | nil => exact ⟨0, rfl⟩
  | cons item rest ih =>
    unfold nonceStatus
    by_cases hexp : item.expiresAtMs ≤ now
    · obtain ⟨k, hk⟩ := ih (matchedExpired || decide (nonce = some item.value))
      refine ⟨k + 1, ?_⟩
      rw [if_pos hexp, hk]
      simp [purgeFront, Nat.not_lt.mpr hexp]
    · rw [if_neg hexp]
      by_cases hmatch : nonce = some item.value
      · exact ⟨0, by simp [hmatch, purgeFront]⟩
      · obtain ⟨k, hk⟩ := ih matchedExpired
        refine ⟨k + 1, ?_⟩
        rw [if_neg hmatch]
        simp only [hk]
        simp [purgeFront, Nat.not_le.mp hexp]

/-! ## Using a nonce -/

variable {digest : DigestCredential} {usage : NonceUsage}

/-- The record of a digest in a nonce: the one that is there, or a new one. -/
theorem findUsage_eq_some {callocOk : Bool} {nonce nonce' : AuthNonce}
    (h : findUsage callocOk digest nonce = some (usage, nonce')) :
    usage.key = digest.usageKey ∧ nonce'.value = nonce.value ∧ nonce'.expiresAtMs = nonce.expiresAtMs ∧
      Keyed.get NonceUsage.key digest.usageKey nonce'.usages = some usage ∧
      (∀ key ≠ digest.usageKey, Keyed.get NonceUsage.key key nonce'.usages =
        Keyed.get NonceUsage.key key nonce.usages) ∧
      ∀ old, Keyed.get NonceUsage.key digest.usageKey nonce.usages = some old → usage = old := by
  unfold findUsage at h
  rcases hget : Keyed.get NonceUsage.key digest.usageKey nonce.usages with _ | old
  · simp only [hget] at h
    split_ifs at h with hfull hcalloc
    simp only [Option.bind_eq_bind, Option.bind_eq_some_iff, Option.pure_def,
      Option.some.injEq, Prod.mk.injEq] at h
    obtain ⟨username, huser, cnonce, hcnonce, rfl, rfl⟩ := h
    obtain rfl := (copyView_bytes_eq_some huser).1
    obtain rfl := (copyView_bytes_eq_some hcnonce).1
    refine ⟨rfl, rfl, rfl, Keyed.get_cons_self rfl, fun key hkey => ?_, fun _ hold => ?_⟩
    · exact Keyed.get_cons_ne fun heq => hkey heq.symm
    · cases hold
  · simp only [hget, Option.some.injEq, Prod.mk.injEq] at h
    obtain ⟨rfl, rfl⟩ := h
    exact ⟨(Keyed.get_eq_some hget).2, rfl, rfl, hget, fun _ _ => rfl,
      fun _ hold => Option.some.inj hold⟩

theorem useRecord_key (digest : DigestCredential) (usage : NonceUsage) :
    (useRecord digest usage).2.key = usage.key := by
  unfold useRecord
  split
  · split <;> rfl
  · split
    · rfl
    · split <;> rfl

/-- A record never goes back: its count does not fall and its flag is not taken away. -/
theorem useRecord_mono (digest : DigestCredential) (usage : NonceUsage) :
    usage.lastNc ≤ (useRecord digest usage).2.lastNc ∧
      (usage.usedWithoutQop = true → (useRecord digest usage).2.usedWithoutQop = true) := by
  unfold useRecord
  by_cases hqop : digest.qop.length = 0
  · rw [if_pos hqop]
    split <;> simp
  · rw [if_neg hqop]
    rcases parseNonceCount digest.nc with _ | nonceCount
    · simp
    · by_cases hle : nonceCount ≤ usage.lastNc
      · simp [hle]
      · simp only [if_neg hle]
        exact ⟨Nat.le_of_lt (Nat.not_le.mp hle), id⟩

/-- A use with `qop` carries a nonce count above the last one, which becomes the last one. -/
theorem useRecord_of_qop (hqop : digest.qop.length ≠ 0) (h : (useRecord digest usage).1 = true) :
    ∃ nonceCount, parseNonceCount digest.nc = some nonceCount ∧ usage.lastNc < nonceCount ∧
      (useRecord digest usage).2.lastNc = nonceCount := by
  unfold useRecord at h ⊢
  rw [if_neg hqop] at h ⊢
  rcases hparse : parseNonceCount digest.nc with _ | nonceCount
  · simp [hparse] at h
  · simp only [hparse] at h ⊢
    by_cases hle : nonceCount ≤ usage.lastNc
    · simp [hle] at h
    · rw [if_neg hle]
      exact ⟨nonceCount, rfl, Nat.not_le.mp hle, rfl⟩

/-- A use without `qop` is the first one and leaves the flag. -/
theorem useRecord_of_no_qop (hqop : digest.qop.length = 0) (h : (useRecord digest usage).1 = true) :
    usage.usedWithoutQop = false ∧ (useRecord digest usage).2.usedWithoutQop = true := by
  unfold useRecord at h ⊢
  rw [if_pos hqop] at h ⊢
  by_cases hused : usage.usedWithoutQop = true
  · simp [hused] at h
  · rw [if_neg hused]
    exact ⟨Bool.eq_false_iff.mpr hused, rfl⟩

/-- What a digest does to its nonce: the record of its key is used, a new one if there was none,
and the records of other keys stay. `used` is the result. -/
structure UsageStep (digest : DigestCredential) (used : Bool) (nonce nonce' : AuthNonce) :
    Prop where
  value : nonce'.value = nonce.value
  expires : nonce'.expiresAtMs = nonce.expiresAtMs
  other : ∀ key ≠ digest.usageKey,
    Keyed.get NonceUsage.key key nonce'.usages = Keyed.get NonceUsage.key key nonce.usages
  own : ∃ usage,
    (∀ old, Keyed.get NonceUsage.key digest.usageKey nonce.usages = some old → usage = old) ∧
      Keyed.get NonceUsage.key digest.usageKey nonce'.usages = some (useRecord digest usage).2 ∧
      used = (useRecord digest usage).1

/-- What `gmv_commit_nonce_usage` can do to the list: nothing, or one use of an unexpired nonce. -/
theorem commitNonceUsage_cases (now : ℕ) (callocOk : Bool) (digest : DigestCredential)
    (nonces : List AuthNonce) :
    commitNonceUsage now callocOk digest nonces = (false, nonces) ∨
      ∃ used nonce nonce', Keyed.get AuthNonce.value digest.nonce nonces = some nonce ∧
        now < nonce.expiresAtMs ∧ UsageStep digest used nonce nonce' ∧
        commitNonceUsage now callocOk digest nonces =
          (used, Keyed.set AuthNonce.value digest.nonce nonce' nonces) := by
  unfold commitNonceUsage
  rcases Keyed.get AuthNonce.value digest.nonce nonces with _ | nonce
  · exact Or.inl rfl
  · simp only
    by_cases hexp : nonce.expiresAtMs ≤ now
    · rw [if_pos hexp]
      exact Or.inl rfl
    · rw [if_neg hexp]
      rcases hfind : findUsage callocOk digest nonce with _ | ⟨usage, nonce₁⟩
      · exact Or.inl rfl
      · obtain ⟨hkey, hvalue, hexpires, hget, hother, hold⟩ := findUsage_eq_some hfind
        have hkey' : (useRecord digest usage).2.key = digest.usageKey :=
          (useRecord_key digest usage).trans hkey
        refine Or.inr ⟨(useRecord digest usage).1, nonce, _, rfl, Nat.not_le.mp hexp, ?_, rfl⟩
        refine ⟨hvalue, hexpires, fun key hne => ?_, usage, hold, ?_, rfl⟩
        · simp only
          rw [Keyed.get_set_ne hkey' hne, hother key hne]
        · exact Keyed.get_set_self hkey' hget

end GmvPjsip.Auth
