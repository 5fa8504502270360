import Mathlib.Data.List.Induction
import GmvPjsip.Auth.Sources
import GmvPjsip.Lib.Clock

/-!
# The sources are a map of grants

What `registered_sources` is for, and that the list does it over whole runs of the application's
calls, the sweeps of a poll and the checks of requests.

* `Grant` and `GrantMap`: what a device was granted, and the map of grants. `GrantMap.Allows` is when
  the map lets a device send from an address.
* `GrantOp` is an operation on the list and `runGrants` what a list of operations makes of an empty
  one. `GrantOp.effect` is the same operation on the map, and `grantMap` the map behind a run: a call
  that fails grants nothing.
* `Tracks` is the invariant: the list stands for the map, but for grants that have expired and were
  swept.
* `sources_refine_grants`: a check is answered as the map says, in every run with a clock that does
  not go back. `recovery_deadline_wraps` is a run in which a deadline exceeds a `uint64_t`.
-/

namespace GmvPjsip.Access

open GmvPjsip.Auth GmvPjsip.Lib

/-! ## The map -/

/-- How long a grant lasts. -/
inductive Validity
  | live
  | recovery (deadline : ℕ)
  deriving DecidableEq, Repr

/-- The transport and the address a device may send from. -/
structure Grant where
  transport : SipTransport
  address : Bytes
  validity : Validity
  deriving DecidableEq, Repr

/-- A live grant is always in force, a recovery grant until its deadline and for requests that
permit it. -/
def Validity.InForce (now : ℕ) (allowRecovery : Bool) : Validity → Prop
  | .live => True
  | .recovery deadline => now < deadline ∧ allowRecovery = true

/-- A recovery grant whose deadline has come. -/
def Validity.Expired (now : ℕ) : Validity → Prop
  | .live => False
  | .recovery deadline => deadline ≤ now

/-- What each device was granted. -/
abbrev GrantMap := Bytes → Option Grant

/-- The map lets a device send from an address. -/
def GrantMap.Allows (m : GrantMap) (now : ℕ) (transport : SipTransport)
    (address deviceId : Bytes) (allowRecovery : Bool) : Prop :=
  ∃ validity, m deviceId = some ⟨transport, address, validity⟩ ∧ validity.InForce now allowRecovery

/-- Give a device a grant in place of the one it has, but no recovery grant in place of a live
one. -/
def GrantMap.give (m : GrantMap) (deviceId : Bytes) (grant : Grant) : GrantMap :=
  if grant.validity ≠ .live ∧ (m deviceId).map Grant.validity = some .live then m
  else Function.update m deviceId (some grant)

/-! ## Operations -/

/-- An operation on the sources, with the readings of the clock it meets. -/
inductive GrantOp
  | allowRegisteredSource (env : GrantEnv) (args : SourceArgs)
  | allowRecoverySource (env : GrantEnv) (args : SourceArgs) (ttlMs : ℕ)
  | removeRegisteredSource (deviceId : StringView)
  /-- The sweep of a poll. -/
  | cleanup (now : ℕ)
  /-- The check of a request. -/
  | query (now : ℕ) (transport : SipTransport) (remoteAddress deviceId : Bytes)
      (allowRecovery : Bool)

/-- What an operation returns and does to the lists. -/
def GrantOp.exec (grants : Grants) : GrantOp → PjStatus × Grants
  | .allowRegisteredSource env args => Auth.allowRegisteredSource env args grants
  | .allowRecoverySource env args ttlMs => Auth.allowRecoverySource env args ttlMs grants
  | .removeRegisteredSource deviceId => Auth.removeRegisteredSource deviceId grants
  | .cleanup now => (.success, cleanupRecoverySources now grants.sources grants.orders)
  | .query now transport remoteAddress deviceId allowRecovery => (.success,
      (registeredSourceAllowed now transport remoteAddress deviceId allowRecovery grants).2)

/-- The device of a grant call and what it is to be granted. -/
def GrantOp.asks : GrantOp → Option (Bytes × Grant)
  | .allowRegisteredSource _ args => (copySource args).map fun (deviceId, address) =>
    (deviceId, ⟨args.transport, address, .live⟩)
  | .allowRecoverySource env args ttlMs => (copySource args).map fun (deviceId, address) =>
    (deviceId, ⟨args.transport, address, .recovery (env.grantNow + ttlMs)⟩)
  | _ => none

/-- The device that a call removes. -/
def GrantOp.removes : GrantOp → Option Bytes
  | .removeRegisteredSource deviceId => copyView 128 deviceId
  | _ => none

/-- What an operation that succeeds does to the map. -/
def GrantOp.effect (m : GrantMap) (op : GrantOp) : GrantMap :=
  match op.asks, op.removes with
  | some (deviceId, grant), _ => m.give deviceId grant
  | none, some deviceId => Function.update m deviceId none
  | none, none => m

/-- The readings of the clock, in order. -/
def GrantOp.readings : GrantOp → List ℕ
  | .allowRecoverySource env _ _ => [env.cleanupNow, env.grantNow]
  | .cleanup now => [now]
  | .query now .. => [now]
  | _ => []

/-- The lists and the map behind an operation. -/
def grantStep (s : Grants × GrantMap) (op : GrantOp) : Grants × GrantMap :=
  let result := op.exec s.1
  (result.2, if result.1 = .success then op.effect s.2 else s.2)

/-- The lists behind a run, which starts without sources. -/
def runGrants (ops : List GrantOp) : Grants := (ops.foldl grantStep (⟨[], []⟩, fun _ => none)).1

/-- The map behind a run. -/
def grantMap (ops : List GrantOp) : GrantMap := (ops.foldl grantStep (⟨[], []⟩, fun _ => none)).2

/-- The deadline of a recovery grant fits a `uint64_t`. -/
def GrantOp.DeadlineFits : GrantOp → Prop
  | .allowRecoverySource env _ ttlMs => env.grantNow + ttlMs < 2 ^ 64
  | _ => True

/-! ## The list as a map -/

/-- The grant a source stands for. -/
def sourceGrant (source : RegisteredSource) : Grant where
  transport := source.transport
  address := source.remoteAddress
  validity :=
    if source.recoveryExpiresAtMs = 0 then .live else .recovery source.recoveryExpiresAtMs

theorem sourceGrant_recovery {transport : SipTransport} {deviceId address : Bytes}
    {generation deadline : ℕ} (h : deadline ≠ 0) :
    sourceGrant ⟨transport, deviceId, address, generation, deadline⟩ =
      ⟨transport, address, .recovery deadline⟩ := by
  rw [sourceGrant, if_neg h]

/-- The map a list of sources stands for. -/
def sourceGrants (sources : List RegisteredSource) : GrantMap := fun deviceId =>
  (Keyed.get RegisteredSource.deviceId deviceId sources).map sourceGrant

/-- The list stands for the map, but for grants that have expired and were swept. -/
structure Tracks (now : ℕ) (sources : List RegisteredSource) (m : GrantMap) : Prop where
  nodup : (sources.map RegisteredSource.deviceId).Nodup
  unnamed : m [] = none
  agrees : ∀ deviceId, sourceGrants sources deviceId = m deviceId ∨
    (sourceGrants sources deviceId = none ∧
      ∃ grant, m deviceId = some grant ∧ grant.validity.Expired now)

/-- The source is not swept. -/
def kept (now : ℕ) (source : RegisteredSource) : Bool :=
  !decide (0 < source.recoveryExpiresAtMs ∧ source.recoveryExpiresAtMs ≤ now)

theorem cleanupRecoverySources_sources (now : ℕ) (sources : List RegisteredSource)
    (orders : List RegisterOrder) :
    (cleanupRecoverySources now sources orders).sources = sources.filter (kept now) := by
  induction sources generalizing orders with
  | nil => rfl
  | cons source rest ih =>
    unfold cleanupRecoverySources
    by_cases hdue : 0 < source.recoveryExpiresAtMs ∧ source.recoveryExpiresAtMs ≤ now
    · have hkept : ¬ kept now source = true := by simp [kept, hdue]
      rw [if_pos hdue, List.filter_cons_of_neg hkept, ih]
    · have hkept : kept now source = true := by
        rw [kept, decide_eq_false hdue]
        rfl
      rw [if_neg hdue, List.filter_cons_of_pos hkept, ← ih orders]

theorem Validity.Expired.mono {now later : ℕ} {validity : Validity} (h : validity.Expired now)
    (hle : now ≤ later) : validity.Expired later := by
  cases validity with
  | live => exact h
  | recovery => exact Nat.le_trans h hle

/-- A source is swept when its grant has expired. -/
theorem expired_of_not_kept {now : ℕ} {source : RegisteredSource} (h : kept now source = false) :
    (sourceGrant source).validity.Expired now := by
  have hdue : 0 < source.recoveryExpiresAtMs ∧ source.recoveryExpiresAtMs ≤ now := by
    simpa [kept] using h
  rw [sourceGrant, if_neg (Nat.pos_iff_ne_zero.mp hdue.1)]
  exact hdue.2

/-- What a check makes of the source it finds is what the grant of the source says. -/
theorem filter_any_iff {now : ℕ} (source : RegisteredSource) (transport : SipTransport)
    (address : Bytes) (allowRecovery : Bool) :
    ((some source).filter (kept now)).any (·.admits transport address allowRecovery) = true ↔
      ∃ validity, some (sourceGrant source) = some ⟨transport, address, validity⟩ ∧
        validity.InForce now allowRecovery := by
  have hmatch : transportAndSourceMatch source.transport source.remoteAddress transport address =
      true ↔ source.transport = transport ∧ source.remoteAddress = address := by
    simp [transportAndSourceMatch]
  have hadmits : ((some source).filter (kept now)).any (·.admits transport address allowRecovery) =
      true ↔ kept now source = true ∧ source.admits transport address allowRecovery = true := by
    cases hkept : kept now source <;> simp [Option.filter, hkept]
  have hforce : (sourceGrant source).validity.InForce now allowRecovery ↔ kept now source = true ∧
      (source.recoveryExpiresAtMs = 0 ∨ allowRecovery = true) := by
    unfold sourceGrant kept
    by_cases hlive : source.recoveryExpiresAtMs = 0
    · simp [hlive, Validity.InForce]
    · have hpos : 0 < source.recoveryExpiresAtMs := Nat.pos_iff_ne_zero.mpr hlive
      simp [hlive, hpos, Validity.InForce]
  rw [hadmits, RegisteredSource.admits, Bool.and_eq_true, hmatch, Bool.or_eq_true,
    decide_eq_true_iff, ← and_assoc, ← hforce]
  constructor
  · rintro ⟨hvalidity, rfl, rfl⟩
    exact ⟨_, rfl, hvalidity⟩
  · rintro ⟨validity, heq, hvalidity⟩
    have hgrant := Option.some.inj heq
    refine ⟨?_, congrArg Grant.transport hgrant, congrArg Grant.address hgrant⟩
    rw [hgrant]
    exact hvalidity

namespace Tracks

variable {now later : ℕ} {sources : List RegisteredSource} {m : GrantMap} {deviceId : Bytes}
  {source : RegisteredSource}

theorem mono (h : Tracks now sources m) (hle : now ≤ later) : Tracks later sources m := by
  refine ⟨h.nodup, h.unnamed, fun device => (h.agrees device).imp_right ?_⟩
  rintro ⟨hnone, grant, hgrant, hexpired⟩
  exact ⟨hnone, grant, hgrant, hexpired.mono hle⟩

/-- What the list holds for a device, the map holds. -/
theorem of_get (h : Tracks now sources m)
    (hget : Keyed.get RegisteredSource.deviceId deviceId sources = some source) :
    m deviceId = some (sourceGrant source) := by
  have hsource : sourceGrants sources deviceId = some (sourceGrant source) := by
    rw [sourceGrants, hget, Option.map_some]
  rcases h.agrees deviceId with heq | ⟨hnone, -⟩
  · rw [← heq, hsource]
  · rw [hsource] at hnone
    cases hnone

/-- Where the list holds nothing, no grant is in force. -/
theorem of_get_none (h : Tracks now sources m)
    (hget : Keyed.get RegisteredSource.deviceId deviceId sources = none) :
    m deviceId = none ∨ ∃ grant, m deviceId = some grant ∧ grant.validity.Expired now := by
  rcases h.agrees deviceId with heq | ⟨-, hexpired⟩
  · rw [← heq, sourceGrants, hget]
    exact Or.inl rfl
  · exact Or.inr hexpired

/-- A live grant of the map is in the list. -/
theorem get_of_live (h : Tracks now sources m) (hlive : (m deviceId).map Grant.validity = some .live) :
    ∃ source, Keyed.get RegisteredSource.deviceId deviceId sources = some source ∧
      source.recoveryExpiresAtMs = 0 := by
  rcases hget : Keyed.get RegisteredSource.deviceId deviceId sources with _ | source
  · rcases h.of_get_none hget with hnone | ⟨grant, hgrant, hexpired⟩
    · rw [hnone] at hlive
      cases hlive
    · rw [hgrant, Option.map_some] at hlive
      rw [Option.some.inj hlive] at hexpired
      exact absurd hexpired id
  · refine ⟨source, rfl, ?_⟩
    by_contra hdeadline
    rw [h.of_get hget, Option.map_some, sourceGrant, if_neg hdeadline] at hlive
    cases hlive

/-- A sweep. -/
theorem cleanup (h : Tracks now sources m) : Tracks now (sources.filter (kept now)) m := by
  refine ⟨h.nodup.sublist (List.filter_sublist.map _), h.unnamed, ?_⟩
  intro device
  have hfilter : sourceGrants (sources.filter (kept now)) device =
      ((Keyed.get RegisteredSource.deviceId device sources).filter (kept now)).map sourceGrant := by
    rw [sourceGrants, Keyed.get_filter h.nodup]
  rw [hfilter]
  rcases hget : Keyed.get RegisteredSource.deviceId device sources with _ | source
  · have hnone := h.agrees device
    rw [sourceGrants, hget] at hnone
    exact hnone
  · rw [h.of_get hget]
    by_cases hkept : kept now source = true
    · rw [Option.filter_some_pos hkept]
      exact Or.inl rfl
    · rw [Option.filter_some_neg (Bool.eq_false_iff.mpr hkept)]
      exact Or.inr ⟨rfl, _, rfl, expired_of_not_kept (Bool.eq_false_iff.mpr hkept)⟩

/-- A device gets a source in place of the one it has, if it has one. -/
theorem put (h : Tracks now sources m) (hnamed : source.deviceId ≠ []) :
    Tracks now (Keyed.put RegisteredSource.deviceId source sources)
      (Function.update m source.deviceId (some (sourceGrant source))) := by
  refine ⟨Keyed.nodup_put h.nodup, ?_, ?_⟩
  · rw [Function.update_of_ne hnamed.symm]
    exact h.unnamed
  · intro device
    by_cases hdevice : device = source.deviceId
    · rw [hdevice, Function.update_self, sourceGrants, Keyed.get_put_self]
      exact Or.inl rfl
    · rw [Function.update_of_ne hdevice, sourceGrants, Keyed.get_put_ne hdevice]
      exact h.agrees device

/-- A device loses its sources. -/
theorem remove (h : Tracks now sources m) (deviceId : Bytes) :
    Tracks now (sources.filter (·.deviceId ≠ deviceId)) (Function.update m deviceId none) := by
  refine ⟨h.nodup.sublist (List.filter_sublist.map _), ?_, ?_⟩
  · by_cases hnamed : [] = deviceId
    · rw [hnamed, Function.update_self]
    · rw [Function.update_of_ne hnamed]
      exact h.unnamed
  · intro device
    have hfilter : sourceGrants (sources.filter (·.deviceId ≠ deviceId)) device =
        ((Keyed.get RegisteredSource.deviceId device sources).filter
          (·.deviceId ≠ deviceId)).map sourceGrant := by
      rw [sourceGrants, Keyed.get_filter h.nodup]
    rw [hfilter]
    by_cases hdevice : device = deviceId
    · subst hdevice
      rw [Function.update_self]
      rcases hget : Keyed.get RegisteredSource.deviceId device sources with _ | source
      · exact Or.inl rfl
      · have hkey := (Keyed.get_eq_some hget).2
        rw [Option.filter_some_neg (by simp [hkey])]
        exact Or.inl rfl
    · rw [Function.update_of_ne hdevice]
      rcases hget : Keyed.get RegisteredSource.deviceId device sources with _ | source
      · have hnone := h.agrees device
        rw [sourceGrants, hget] at hnone
        exact hnone
      · have hkey := (Keyed.get_eq_some hget).2
        rw [Option.filter_some_pos (by simpa [hkey] using hdevice), h.of_get hget]
        exact Or.inl rfl

/-- **A check is answered as the map says.** -/
theorem allowed_iff (h : Tracks now sources m) (transport : SipTransport)
    (address deviceId : Bytes) (allowRecovery : Bool) (orders : List RegisterOrder) :
    (registeredSourceAllowed now transport address deviceId allowRecovery ⟨sources, orders⟩).1 =
        true ↔ m.Allows now transport address deviceId allowRecovery := by
  unfold registeredSourceAllowed GrantMap.Allows
  by_cases hnamed : deviceId.length = 0
  · rw [if_pos hnamed, List.length_eq_zero_iff.mp hnamed, h.unnamed]
    simp
  · rw [if_neg hnamed]
    simp only [cleanupRecoverySources_sources]
    rw [Keyed.any_key (h.nodup.sublist (List.filter_sublist.map _)), Keyed.get_filter h.nodup]
    rcases hget : Keyed.get RegisteredSource.deviceId deviceId sources with _ | source
    · rcases h.of_get_none hget with hnone | ⟨grant, hgrant, hexpired⟩
      · simp [hnone]
      · rw [hgrant]
        constructor
        · intro hfalse
          cases hfalse
        · rintro ⟨validity, heq, hforce⟩
          obtain rfl := Option.some.inj heq
          cases validity with
          | live => exact absurd hexpired id
          | recovery => exact absurd hforce.1 (Nat.not_lt.mpr hexpired)
    · rw [h.of_get hget]
      exact filter_any_iff source transport address allowRecovery

end Tracks

/-! ## Operations keep the invariant -/

section

variable {now : ℕ} {grants : Grants} {m : GrantMap}

/-- A call that fails and leaves the lists as they are. -/
theorem grantStep_refused (op : GrantOp) {status : PjStatus} (hstatus : status ≠ .success)
    (hexec : op.exec grants = (status, grants)) : grantStep (grants, m) op = (grants, m) := by
  rw [grantStep, hexec]
  exact congrArg (Prod.mk grants) (if_neg hstatus)

/-- A call that succeeds. -/
theorem grantStep_success (op : GrantOp) {grants' : Grants}
    (hexec : op.exec grants = (.success, grants')) :
    grantStep (grants, m) op = (grants', op.effect m) := by
  rw [grantStep, hexec]
  rfl

theorem tracks_allowRegisteredSource (h : Tracks now grants.sources m) (env : GrantEnv)
    (args : SourceArgs) :
    Tracks now (grantStep (grants, m) (.allowRegisteredSource env args)).1.sources
      (grantStep (grants, m) (.allowRegisteredSource env args)).2 := by
  rcases allowRegisteredSource_cases env args grants with
    ⟨status, hstatus, hexec⟩ | ⟨deviceId, address, generation, hnamed, hcopy, hexec⟩
  · rw [grantStep_refused (.allowRegisteredSource env args) hstatus hexec]
    exact h
  · have heffect : GrantOp.effect m (.allowRegisteredSource env args) =
        Function.update m deviceId (some ⟨args.transport, address, .live⟩) := by
      rw [GrantOp.effect, GrantOp.asks, hcopy]
      exact if_neg fun hboth => hboth.1 rfl
    rw [grantStep_success (.allowRegisteredSource env args) hexec, heffect]
    exact h.put hnamed

/-- A recovery grant, which begins with a sweep. -/
theorem tracks_allowRecoverySource {env : GrantEnv} {args : SourceArgs} {ttlMs : ℕ}
    (h : Tracks env.cleanupNow grants.sources m) (hfits : env.grantNow + ttlMs < 2 ^ 64) :
    Tracks env.cleanupNow (grantStep (grants, m) (.allowRecoverySource env args ttlMs)).1.sources
      (grantStep (grants, m) (.allowRecoverySource env args ttlMs)).2 := by
  rcases allowRecoverySource_cases env args ttlMs grants with
    ⟨status, hstatus, hexec⟩ | ⟨deviceId, address, hnamed, httl, hcopy, hexec⟩
  · rw [grantStep_refused (.allowRecoverySource env args ttlMs) hstatus hexec]
    exact h
  · have hswept := h.cleanup
    rw [← cleanupRecoverySources_sources env.cleanupNow grants.sources grants.orders] at hswept
    have heffect : GrantOp.effect m (.allowRecoverySource env args ttlMs) =
        m.give deviceId ⟨args.transport, address, .recovery (env.grantNow + ttlMs)⟩ := by
      rw [GrantOp.effect, GrantOp.asks, hcopy]
      rfl
    rcases hexec with ⟨item, hitem, hlive, hexec⟩ | hexec | ⟨generation, hnotLive, hexec⟩
    · -- the device has a live grant, in the list and hence in the map
      have hgive : m.give deviceId ⟨args.transport, address, .recovery (env.grantNow + ttlMs)⟩ =
          m := by
        refine if_pos ⟨Validity.noConfusion, ?_⟩
        rw [hswept.of_get hitem, Option.map_some, sourceGrant, if_pos hlive]
      rw [grantStep_success (.allowRecoverySource env args ttlMs) hexec, heffect, hgive]
      exact hswept
    · rw [grantStep, GrantOp.exec, hexec]
      exact hswept
    · have hgive : m.give deviceId ⟨args.transport, address, .recovery (env.grantNow + ttlMs)⟩ =
          Function.update m deviceId
            (some ⟨args.transport, address, .recovery (env.grantNow + ttlMs)⟩) := by
        refine if_neg ?_
        rintro ⟨-, hlive⟩
        obtain ⟨item, hitem, hzero⟩ := hswept.get_of_live hlive
        exact hnotLive item hitem hzero
      rw [grantStep_success (.allowRecoverySource env args ttlMs) hexec, heffect, hgive]
      have hnonzero : env.grantNow + ttlMs ≠ 0 := by omega
      rw [u64_of_lt hfits, ← sourceGrant_recovery hnonzero]
      exact hswept.put hnamed

theorem tracks_removeRegisteredSource (h : Tracks now grants.sources m) (view : StringView) :
    Tracks now (grantStep (grants, m) (.removeRegisteredSource view)).1.sources
      (grantStep (grants, m) (.removeRegisteredSource view)).2 := by
  rcases removeRegisteredSource_cases view grants with
    ⟨status, hstatus, hexec⟩ | ⟨deviceId, hcopy, hexec⟩
  · rw [grantStep_refused (.removeRegisteredSource view) hstatus hexec]
    exact h
  · have heffect : GrantOp.effect m (.removeRegisteredSource view) =
        Function.update m deviceId none := by
      rw [GrantOp.effect, GrantOp.removes, hcopy]
      rfl
    rw [grantStep_success (.removeRegisteredSource view) hexec, heffect]
    exact h.remove deviceId

/-- A sweep, by a poll or by a check. -/
theorem tracks_swept (h : Tracks now grants.sources m) :
    Tracks now (cleanupRecoverySources now grants.sources grants.orders).sources m := by
  rw [cleanupRecoverySources_sources]
  exact h.cleanup

/-- **One operation.** The list stands for the map at the first reading of the operation. -/
theorem tracks_grantStep {op : GrantOp} (hfits : op.DeadlineFits)
    (hnow : ∀ reading ∈ op.readings.head?, reading = now) (h : Tracks now grants.sources m) :
    Tracks now (grantStep (grants, m) op).1.sources (grantStep (grants, m) op).2 := by
  cases op with
  | allowRegisteredSource env args => exact tracks_allowRegisteredSource h env args
  | allowRecoverySource env =>
    obtain rfl : env.cleanupNow = now := hnow _ rfl
    exact tracks_allowRecoverySource h hfits
  | removeRegisteredSource view => exact tracks_removeRegisteredSource h view
  | cleanup reading =>
    obtain rfl : reading = now := hnow _ rfl
    exact tracks_swept h
  | query reading transport address deviceId allowRecovery =>
    obtain rfl : reading = now := hnow _ rfl
    show Tracks reading
      (registeredSourceAllowed reading transport address deviceId allowRecovery grants).2.sources m
    unfold registeredSourceAllowed
    by_cases hempty : deviceId.length = 0
    · rw [if_pos hempty]
      exact h
    · rw [if_neg hempty]
      exact tracks_swept h

end

/-! ## Runs -/

section

variable {ops before after : List GrantOp} {op : GrantOp} {now : ℕ} {deviceId : Bytes}

/-- **Every run keeps the invariant**, at every time the clock has come to. -/
theorem tracks_run (hclock : Clock.Runs GrantOp.readings ops) (hfits : ∀ op ∈ ops, op.DeadlineFits)
    (hnow : Clock.Reached GrantOp.readings ops now) :
    Tracks now (runGrants ops).sources (grantMap ops) := by
  induction ops using List.reverseRecOn generalizing now with
  | nil => exact ⟨List.nodup_nil, rfl, fun _ => Or.inl rfl⟩
  | append_singleton before op ih =>
    have hbefore : ∀ {time}, Clock.Reached GrantOp.readings before time →
        Tracks time (runGrants before).sources (grantMap before) :=
      ih hclock.of_append fun op hop => hfits op (List.mem_append_left _ hop)
    have hop : op.DeadlineFits :=
      hfits op (List.mem_append_right _ List.mem_cons_self)
    rw [runGrants, grantMap, List.foldl_append]
    -- the list is compared with the map at the first reading of `op`, if it reads the clock
    rcases hreadings : op.readings with _ | ⟨first, rest⟩
    · refine tracks_grantStep hop ?_ (hbefore hnow.of_append)
      rw [hreadings]
      rintro _ ⟨⟩
    · have hfirst : first ∈ op.readings := hreadings ▸ List.mem_cons_self
      refine Tracks.mono ?_ (hnow.of_mem (List.mem_append_right _ List.mem_cons_self) hfirst)
      refine tracks_grantStep hop ?_ (hbefore (hclock.reached hfirst))
      rw [hreadings]
      rintro _ ⟨⟩
      rfl

/-- The operation is a call that grants the device a live source or removes the device. -/
def GrantOp.Replaces (deviceId : Bytes) : GrantOp → Prop
  | .allowRegisteredSource _ args => (copySource args).map Prod.fst = some deviceId
  | .removeRegisteredSource view => copyView 128 view = some deviceId
  | _ => False

/-- A live grant gives way to another live grant only. -/
theorem give_live {m : GrantMap} {grant new : Grant} {device : Bytes}
    (hgrant : m deviceId = some grant) (hlive : grant.validity = .live)
    (hnew : device = deviceId → new.validity ≠ .live) :
    m.give device new deviceId = some grant := by
  rw [GrantMap.give]
  by_cases hdevice : device = deviceId
  · subst hdevice
    rw [if_pos ⟨hnew rfl, by rw [hgrant, Option.map_some, hlive]⟩]
    exact hgrant
  · split_ifs
    · exact hgrant
    · rw [Function.update_of_ne (Ne.symm hdevice)]
      exact hgrant

/-- A live grant is kept by an operation that neither replaces nor removes it. -/
theorem effect_live {m : GrantMap} {grant : Grant} (hop : ¬ op.Replaces deviceId)
    (hgrant : m deviceId = some grant) (hlive : grant.validity = .live) :
    op.effect m deviceId = some grant := by
  cases op with
  | allowRegisteredSource env args =>
    rw [GrantOp.effect, GrantOp.asks]
    rcases hcopy : copySource args with _ | ⟨device, address⟩
    · exact hgrant
    · refine give_live hgrant hlive fun hdevice => absurd ?_ hop
      rw [GrantOp.Replaces, hcopy, Option.map_some, hdevice]
  | allowRecoverySource env args =>
    rw [GrantOp.effect, GrantOp.asks]
    rcases copySource args with _ | ⟨device, address⟩
    · exact hgrant
    · exact give_live hgrant hlive fun _ => Validity.noConfusion
  | removeRegisteredSource view =>
    rw [GrantOp.effect, GrantOp.removes]
    rcases hcopy : copyView 128 view with _ | device
    · exact hgrant
    · have hdevice : deviceId ≠ device := by
        rintro rfl
        exact hop hcopy
      exact (Function.update_of_ne hdevice none m).trans hgrant
  | cleanup => exact hgrant
  | query => exact hgrant

/-- A live grant is kept until it is replaced or removed. -/
theorem grantMap_live {grant : Grant} (hafter : ∀ op ∈ after, ¬ op.Replaces deviceId)
    (hgrant : grantMap before deviceId = some grant) (hlive : grant.validity = .live) :
    grantMap (before ++ after) deviceId = some grant := by
  induction after using List.reverseRecOn with
  | nil =>
    rw [List.append_nil]
    exact hgrant
  | append_singleton ops op ih =>
    have hops := ih fun op hop => hafter op (List.mem_append_left _ hop)
    have hop := hafter op (List.mem_append_right _ List.mem_cons_self)
    rw [← List.append_assoc, grantMap, List.foldl_append]
    show (grantStep _ op).2 deviceId = some grant
    rw [grantStep]
    dsimp only
    split_ifs
    · exact effect_live hop hops hlive
    · exact hops

/-- A call that succeeds gives the device what it asks for. -/
theorem grantMap_asked {grant : Grant} (hsuccess : (op.exec (runGrants before)).1 = .success)
    (hasks : op.asks = some (deviceId, grant))
    (hgives : grant.validity = .live ∨ (grantMap before deviceId).map Grant.validity ≠ some .live) :
    grantMap (before ++ [op]) deviceId = some grant := by
  have hstep : grantMap (before ++ [op]) = op.effect (grantMap before) := by
    rw [grantMap, List.foldl_append]
    exact if_pos hsuccess
  have hgive : (grantMap before).give deviceId grant =
      Function.update (grantMap before) deviceId (some grant) := by
    refine if_neg fun hboth => ?_
    exact hgives.elim hboth.1 fun hnot => hnot hboth.2
  rw [hstep, GrantOp.effect, hasks]
  dsimp only
  rw [hgive, Function.update_self]

end

/-- **The sources refine a map of grants.** In every run whose clock does not go back and whose
deadlines fit a `uint64_t`:

* no device has two sources;
* a check is answered as the map says;
* a live grant is honoured until it is replaced or removed;
* behind a call that succeeds, the device may send from the address of this call and no other, while
  the grant is in force. -/
theorem sources_refine_grants (ops : List GrantOp) (hclock : Clock.Runs GrantOp.readings ops)
    (hfits : ∀ op ∈ ops, op.DeadlineFits) :
    ((runGrants ops).sources.map RegisteredSource.deviceId).Nodup ∧
    ∀ now, Clock.Reached GrantOp.readings ops now → ∀ transport address deviceId allowRecovery,
      ((registeredSourceAllowed now transport address deviceId allowRecovery (runGrants ops)).1 =
        true ↔ (grantMap ops).Allows now transport address deviceId allowRecovery) ∧
      (∀ before after, ops = before ++ after →
        grantMap before deviceId = some ⟨transport, address, .live⟩ →
        (∀ op ∈ after, ¬ op.Replaces deviceId) →
        (registeredSourceAllowed now transport address deviceId allowRecovery (runGrants ops)).1 =
          true) ∧
      ∀ before op grant, ops = before ++ [op] → (op.exec (runGrants before)).1 = .success →
        op.asks = some (deviceId, grant) →
        (grant.validity = .live ∨ (grantMap before deviceId).map Grant.validity ≠ some .live) →
        ((registeredSourceAllowed now transport address deviceId allowRecovery
            (runGrants ops)).1 = true ↔
          grant.transport = transport ∧ grant.address = address ∧
            grant.validity.InForce now allowRecovery) := by
  have htracks : ∀ {now}, Clock.Reached GrantOp.readings ops now →
      Tracks now (runGrants ops).sources (grantMap ops) := tracks_run hclock hfits
  obtain ⟨late, hlate⟩ := Clock.exists_reached ops
  refine ⟨(htracks hlate).nodup, ?_⟩
  intro now hnow transport address deviceId allowRecovery
  have hallowed := (htracks hnow).allowed_iff transport address deviceId allowRecovery
    (runGrants ops).orders
  refine ⟨hallowed, ?_, ?_⟩
  · intro before after hops hgrant hafter
    refine hallowed.mpr ⟨.live, ?_, trivial⟩
    rw [hops]
    exact grantMap_live hafter hgrant rfl
  · intro before op grant hops hsuccess hasks hgives
    have hgrant : grantMap ops deviceId = some grant := by
      rw [hops]
      exact grantMap_asked hsuccess hasks hgives
    rw [hallowed, GrantMap.Allows, hgrant]
    constructor
    · rintro ⟨validity, heq, hforce⟩
      obtain rfl := Option.some.inj heq
      exact ⟨rfl, rfl, hforce⟩
    · rintro ⟨rfl, rfl, hforce⟩
      exact ⟨grant.validity, rfl, hforce⟩

/-- The calls for one device: a live grant, a recovery grant 10 ms later, and a sweep. -/
def sampleGrantOps : List GrantOp :=
  let args address : SourceArgs :=
    ⟨sourceSize, abiVersion, .udp, .bytes (ascii "34020000"), .bytes (ascii address), .null 0, 0⟩
  [.allowRegisteredSource ⟨true, true, 0, 0⟩ (args "10.0.0.1:5060"),
    .allowRecoverySource ⟨true, true, 10, 10⟩ (args "10.0.0.2:5060") 5,
    .cleanup 20]

theorem sources_refine_grants_sample :
    (Clock.Runs GrantOp.readings sampleGrantOps ∧ ∀ op ∈ sampleGrantOps, op.DeadlineFits) ∧
    (registeredSourceAllowed 20 .udp (ascii "10.0.0.1:5060") (ascii "34020000") false
      (runGrants sampleGrantOps)).1 = true := by
  have hclock : Clock.Runs GrantOp.readings sampleGrantOps := by decide
  have hfits : ∀ op ∈ sampleGrantOps, op.DeadlineFits := by
    simp [sampleGrantOps, GrantOp.DeadlineFits]
  have hreached : Clock.Reached GrantOp.readings sampleGrantOps 20 := by decide
  refine ⟨⟨hclock, hfits⟩, ?_⟩
  refine (((sources_refine_grants sampleGrantOps hclock hfits).2 20 hreached _ _ _ _).2.1
    (sampleGrantOps.take 1) (sampleGrantOps.drop 1) rfl ?_ ?_)
  · rfl
  · simp [sampleGrantOps, GrantOp.Replaces]

/-- **A deadline that does not fit.** With the clock at the largest `uint64_t` the deadline of a
recovery grant of 1 ms wraps to 0, which stands for a live grant: the check lets an OPTIONS request
through that the map refuses. -/
theorem recovery_deadline_wraps : ∃ ops now transport address deviceId,
      Clock.Runs GrantOp.readings ops ∧ Clock.Reached GrantOp.readings ops now ∧
      (registeredSourceAllowed now transport address deviceId false (runGrants ops)).1 = true ∧
      ¬ (grantMap ops).Allows now transport address deviceId false := by
  let now := 2 ^ 64 - 1
  let deviceId := ascii "34020000"
  let address := ascii "10.0.0.1:5060"
  let args : SourceArgs :=
    ⟨sourceSize, abiVersion, .udp, .bytes deviceId, .bytes address, .null 0, 0⟩
  refine ⟨[.allowRecoverySource ⟨true, true, now, now⟩ args 1], now, .udp, address, deviceId,
    by decide, by decide, by decide, ?_⟩
  rintro ⟨validity, hgrant, hforce⟩
  obtain rfl : Validity.recovery (now + 1) = validity :=
    congrArg Grant.validity (Option.some.inj hgrant)
  exact Bool.false_ne_true hforce.2

end GmvPjsip.Access
