import Mathlib.Data.List.Induction
import GmvPjsip.Access.Request
import GmvPjsip.Auth.Sources
import GmvPjsip.Lib.Clock

/-!
# Permits for incoming INVITEs

The application permits one INVITE at a time, and an INVITE that arrives uses a permit up.

* `allowIncomingInvite`, `consumeIncomingInviteAllow` are the shim's functions on the list
  `incoming_invite_allows`. `InviteAllow.Admits` says which INVITEs a permit is for.
* `PermitOp` is a call or an arriving INVITE and `permitsAfter` the list behind a run of them.
* `held` is the same list with the number of the call that made each permit, and `usedBy` the call
  whose permit an INVITE uses up. `Held` is the invariant that ties them together.
* `invite_permits_one_shot`: in every run with a clock that does not go back, an INVITE is let through
  on a permit of its own, the other permits stay until they expire, and an INVITE is refused only when
  no permit for it is left.
-/

namespace GmvPjsip.Access

open GmvPjsip.Auth GmvPjsip.Lib

/-! ## The list of permits -/

/-- A `gmv_incoming_invite_allow_t`. -/
structure InviteAllow where
  transport : SipTransport
  targetId : Bytes
  sourceId : Bytes
  remoteAddress : Bytes
  expiresAtMs : ℕ
  deriving DecidableEq, Repr

/-- `sizeof(gmv_sip_incoming_invite_allow_t)`. -/
def inviteAllowSize : ℕ := 72

/-- A `gmv_sip_incoming_invite_allow_t`. A transport that is neither UDP nor TCP is `unknown`. -/
structure InviteAllowArgs where
  size : ℕ
  version : ℕ
  transport : SipTransport
  targetId : StringView
  sourceId : StringView
  remoteAddress : StringView
  ttlMs : ℕ
  deriving DecidableEq, Repr

/-- The allocation and the two clock readings of a call. -/
structure PermitEnv where
  itemCalloc : Bool
  allowNow : ℕ
  cleanupNow : ℕ
  deriving DecidableEq, Repr

/-- The permit has not expired. -/
def InviteAllow.alive (now : ℕ) (allow : InviteAllow) : Bool := decide (now < allow.expiresAtMs)

/-- Unlink the permits that have expired.
Source: `shim.c`, `gmv_cleanup_incoming_invite_allows` -/
def cleanupIncomingInviteAllows (now : ℕ) (allows : List InviteAllow) : List InviteAllow :=
  allows.filter (InviteAllow.alive now)

/-- The texts of a permit, if they fit their buffers. -/
def copyInviteAllow (args : InviteAllowArgs) : Option (Bytes × Bytes × Bytes) := do
  let targetId ← copyView 128 args.targetId
  let sourceId ← copyView 128 args.sourceId
  let remoteAddress ← copyView 64 args.remoteAddress
  return (targetId, sourceId, remoteAddress)

/-- The checks of a call. -/
def inviteAllowArgsValid (args : InviteAllowArgs) : Bool :=
  decide (inviteAllowSize ≤ args.size) && decide (args.version = abiVersion) &&
    decide (args.transport ≠ .unknown) && StringView.isSet args.targetId &&
    StringView.isSet args.sourceId && StringView.isSet args.remoteAddress && decide (args.ttlMs ≠ 0)

/-- Permit one INVITE. A runtime that was not started refuses the call with `PJ_EINVAL`.
Source: `shim.c`, `gmv_sip_runtime_allow_incoming_invite` -/
def allowIncomingInvite (env : PermitEnv) (args : InviteAllowArgs) (allows : List InviteAllow) :
    PjStatus × List InviteAllow :=
  if !inviteAllowArgsValid args then (.einval, allows)
  else if !env.itemCalloc then (.enomem, allows)
  else match copyInviteAllow args with
    | none => (.etoosmall, allows)
    | some (targetId, sourceId, remoteAddress) =>
      let item : InviteAllow :=
        ⟨args.transport, targetId, sourceId, remoteAddress, u64 (env.allowNow + args.ttlMs)⟩
      (.success, item :: cleanupIncomingInviteAllows env.cleanupNow allows)

/-- The test that the loop over the permits makes of each one. -/
def InviteAllow.admits (request : Request) (allow : InviteAllow) : Bool :=
  decide (toUser request = allow.sourceId) && (decide (fromUser request = allow.targetId) ||
      subjectContainsTarget request allow.targetId) &&
    transportAndSourceMatch allow.transport allow.remoteAddress request.rx.origin.transport
      request.rx.origin.sourceName

/-- The loop over the permits: unlink the first one that admits the request. -/
def consumeLoop (request : Request) : List InviteAllow → Bool × List InviteAllow
  | [] => (false, [])
  | allow :: rest =>
    if allow.admits request then (true, rest)
    else
      let result := consumeLoop request rest
      (result.1, allow :: result.2)

/-- Use up a permit for an INVITE.
Source: `shim.c`, `gmv_consume_incoming_invite_allow` -/
def consumeIncomingInviteAllow (now : ℕ) (request : Request) (allows : List InviteAllow) :
    Bool × List InviteAllow :=
  consumeLoop request (cleanupIncomingInviteAllows now allows)

theorem consumeLoop_eq (request : Request) (allows : List InviteAllow) : consumeLoop request allows =
      (allows.any (InviteAllow.admits request), allows.eraseP (InviteAllow.admits request)) := by
  induction allows with
  | nil => rfl
  | cons allow rest ih =>
    rw [consumeLoop, List.any_cons]
    by_cases hadmits : allow.admits request = true
    · rw [if_pos hadmits, List.eraseP_cons_of_pos hadmits, hadmits, Bool.true_or]
    · rw [if_neg hadmits, List.eraseP_cons_of_neg hadmits, ih, Bool.eq_false_iff.mpr hadmits,
        Bool.false_or]

/-- A permit is for an INVITE: it has its transport and its source address, its source is the To
user, and its target is the From user or occurs in the Subject value. -/
structure InviteAllow.Admits (allow : InviteAllow) (request : Request) : Prop where
  transport : allow.transport = request.rx.origin.transport
  remoteAddress : allow.remoteAddress = request.rx.origin.sourceName
  sourceId : allow.sourceId = toUser request
  targetId : allow.targetId = fromUser request ∨
    ∃ subject, request.subject = some subject ∧ allow.targetId <:+: subject

theorem InviteAllow.admits_iff {allow : InviteAllow} {request : Request}
    (hnamed : allow.targetId ≠ []) : allow.admits request = true ↔ allow.Admits request := by
  simp only [InviteAllow.admits, transportAndSourceMatch, Bool.and_eq_true, Bool.or_eq_true,
    decide_eq_true_eq, subjectContainsTarget_iff hnamed]
  constructor
  · rintro ⟨⟨hsource, htarget⟩, htransport, haddress⟩
    exact ⟨htransport, haddress, hsource.symm, htarget.imp_left Eq.symm⟩
  · rintro ⟨htransport, haddress, hsource, htarget⟩
    exact ⟨⟨hsource.symm, htarget.imp_left Eq.symm⟩, htransport, haddress⟩

/-! ## Runs -/

/-- A call, or an INVITE that arrives. -/
inductive PermitOp
  | allowIncomingInvite (env : PermitEnv) (args : InviteAllowArgs)
  | invite (now : ℕ) (request : Request)

/-- The readings of the clock, in order. -/
def PermitOp.readings : PermitOp → List ℕ
  | .allowIncomingInvite env _ => [env.allowNow, env.cleanupNow]
  | .invite now _ => [now]

/-- One call or INVITE. -/
def permitStep (allows : List InviteAllow) : PermitOp → List InviteAllow
  | .allowIncomingInvite env args => (allowIncomingInvite env args allows).2
  | .invite now request => (consumeIncomingInviteAllow now request allows).2

/-- The permits behind a run. -/
def permitsAfter (ops : List PermitOp) : List InviteAllow := ops.foldl permitStep []

/-- The permit that a call makes, if it succeeds. -/
def PermitOp.granted : PermitOp → Option InviteAllow
  | .allowIncomingInvite env args =>
    if inviteAllowArgsValid args && env.itemCalloc then
      (copyInviteAllow args).map fun (targetId, sourceId, remoteAddress) =>
        ⟨args.transport, targetId, sourceId, remoteAddress, u64 (env.allowNow + args.ttlMs)⟩
    else none
  | .invite .. => none

/-- The permit of call number `j` of a run. -/
def grantedBy (ops : List PermitOp) (j : ℕ) : Option InviteAllow := ops[j]?.bind PermitOp.granted

/-- Number `i` of a run is an INVITE that is let through. -/
def LetThrough (ops : List PermitOp) (i : ℕ) : Prop :=
  ∃ now request, ops[i]? = some (.invite now request) ∧
    (consumeIncomingInviteAllow now request (permitsAfter (ops.take i))).1 = true

/-! ## Which call made a permit -/

/-- What an operation makes of the numbered permits; `n` is its own number. -/
def holdNext (n : ℕ) (entries : List (ℕ × InviteAllow)) (op : PermitOp) : List (ℕ × InviteAllow) :=
  match op with
  | .allowIncomingInvite env args =>
    match PermitOp.granted (.allowIncomingInvite env args) with
    | none => entries
    | some item => (n, item) :: entries.filter fun entry => entry.2.alive env.cleanupNow
  | .invite now request =>
    (entries.filter fun entry => entry.2.alive now).eraseP fun entry => entry.2.admits request

/-- The permits behind a run, each with the number of the call that made it. -/
def held (ops : List PermitOp) : List (ℕ × InviteAllow) :=
  (ops.foldl (fun s op => (s.1 + 1, holdNext s.1 s.2 op)) ((0, []) : ℕ × List (ℕ × InviteAllow))).2

/-- The numbered permit that an INVITE uses up. -/
def taken (entries : List (ℕ × InviteAllow)) (now : ℕ) (request : Request) : Option (ℕ × InviteAllow) :=
  (entries.filter fun entry => entry.2.alive now).find? fun entry => entry.2.admits request

/-- The call whose permit number `i` of a run uses up. -/
def usedBy (ops : List PermitOp) (i : ℕ) : Option ℕ :=
  match ops[i]? with
  | some (.invite now request) => (taken (held (ops.take i)) now request).map Prod.fst
  | _ => none

section

variable {before : List PermitOp} {op : PermitOp} {i j : ℕ} {allow : InviteAllow}

theorem held_append_singleton (before : List PermitOp) (op : PermitOp) :
    held (before ++ [op]) = holdNext before.length (held before) op := by
  have hlength : ∀ ops : List PermitOp, ∀ s : ℕ × List (ℕ × InviteAllow),
      (ops.foldl (fun s op => (s.1 + 1, holdNext s.1 s.2 op)) s).1 = s.1 + ops.length := by
    intro ops
    induction ops with
    | nil => exact fun s => rfl
    | cons op rest ih =>
      intro s
      rw [List.foldl_cons, ih, List.length_cons]
      omega
  rw [held, List.foldl_append, List.foldl_cons, List.foldl_nil, hlength, Nat.zero_add]
  rfl

theorem permitsAfter_append_singleton (before : List PermitOp) (op : PermitOp) :
    permitsAfter (before ++ [op]) = permitStep (permitsAfter before) op := by
  rw [permitsAfter, List.foldl_append]
  rfl

/-- A call adds its permit to the permits that are left, or does nothing. -/
theorem permitStep_allow (env : PermitEnv) (args : InviteAllowArgs) (allows : List InviteAllow) :
    permitStep allows (.allowIncomingInvite env args) =
      match PermitOp.granted (.allowIncomingInvite env args) with
      | none => allows
      | some item => item :: allows.filter (InviteAllow.alive env.cleanupNow) := by
  rw [permitStep, allowIncomingInvite, PermitOp.granted]
  by_cases hvalid : inviteAllowArgsValid args = true
  · by_cases hcalloc : env.itemCalloc = true
    · rw [hvalid, hcalloc]
      rcases copyInviteAllow args with _ | ⟨targetId, sourceId, remoteAddress⟩
      · rfl
      · rfl
    · rw [hvalid, Bool.eq_false_iff.mpr hcalloc]
      rfl
  · rw [Bool.eq_false_iff.mpr hvalid]
    rfl

theorem permitStep_invite (now : ℕ) (request : Request) (allows : List InviteAllow) :
    permitStep allows (.invite now request) =
      (allows.filter (InviteAllow.alive now)).eraseP (InviteAllow.admits request) := by
  rw [permitStep, consumeIncomingInviteAllow, consumeLoop_eq]
  rfl

theorem grantedBy_append_singleton : grantedBy (before ++ [op]) j = some allow ↔
      grantedBy before j = some allow ∨ (j = before.length ∧ op.granted = some allow) := by
  unfold grantedBy
  rcases Nat.lt_trichotomy j before.length with hlt | rfl | hgt
  · rw [List.getElem?_append_left hlt]
    exact ⟨Or.inl, fun h => h.resolve_right fun hop => (Nat.ne_of_lt hlt) hop.1⟩
  · rw [List.getElem?_concat_length, List.getElem?_eq_none (Nat.le_refl _)]
    exact ⟨fun h => Or.inr ⟨rfl, h⟩, fun h => (h.resolve_left (by simp)).2⟩
  · rw [List.getElem?_eq_none (by simp; omega), List.getElem?_eq_none (Nat.le_of_lt hgt)]
    exact ⟨Or.inl, fun h => h.resolve_right fun hop => (Nat.ne_of_gt hgt) hop.1⟩

theorem usedBy_append_singleton :
    usedBy (before ++ [op]) i = some j ↔ usedBy before i = some j ∨ (i = before.length ∧
      ∃ now request, op = .invite now request ∧
        (taken (held before) now request).map Prod.fst = some j) := by
  unfold usedBy
  rcases Nat.lt_trichotomy i before.length with hlt | rfl | hgt
  · rw [List.getElem?_append_left hlt, List.take_append_of_le_length (Nat.le_of_lt hlt)]
    exact ⟨Or.inl, fun h => h.resolve_right fun hop => (Nat.ne_of_lt hlt) hop.1⟩
  · rw [List.getElem?_concat_length, List.getElem?_eq_none (Nat.le_refl _), List.take_left]
    constructor
    · intro h
      cases op with
      | allowIncomingInvite => cases h
      | invite now request => exact Or.inr ⟨rfl, now, request, rfl, h⟩
    · rintro (h | ⟨-, now, request, rfl, h⟩)
      · cases h
      · exact h
  · rw [List.getElem?_eq_none (by simp; omega), List.getElem?_eq_none (Nat.le_of_lt hgt)]
    exact ⟨Or.inl, fun h => h.resolve_right fun hop => (Nat.ne_of_gt hgt) hop.1⟩

theorem lt_length_of_grantedBy (h : grantedBy before j = some allow) : j < before.length := by
  by_contra hge
  rw [grantedBy, List.getElem?_eq_none (Nat.not_lt.mp hge)] at h
  cases h

end

/-! ## Unlinking the first match -/

section

variable {entries : List (ℕ × InviteAllow)} {p : ℕ × InviteAllow → Bool}
  {entry found : ℕ × InviteAllow}

/-- What is not the first match stays. -/
theorem mem_eraseP_of_ne (hentry : entry ∈ entries) (hne : entries.find? p ≠ some entry) :
    entry ∈ entries.eraseP p := by
  induction entries with
  | nil => cases hentry
  | cons head rest ih =>
    by_cases hp : p head = true
    · rw [List.eraseP_cons_of_pos hp]
      rw [List.find?_cons_of_pos hp] at hne
      exact (List.mem_cons.mp hentry).resolve_left fun heq => hne (heq ▸ rfl)
    · rw [List.eraseP_cons_of_neg hp]
      rw [List.find?_cons_of_neg hp] at hne
      rcases List.mem_cons.mp hentry with rfl | hrest
      · exact List.mem_cons_self
      · exact List.mem_cons_of_mem _ (ih hrest hne)

/-- With distinct numbers, the number of the first match is gone. -/
theorem fst_notMem_eraseP (hnodup : (entries.map Prod.fst).Nodup)
    (hfound : entries.find? p = some found) : found.1 ∉ (entries.eraseP p).map Prod.fst := by
  induction entries with
  | nil => cases hfound
  | cons head rest ih =>
    rw [List.map_cons, List.nodup_cons] at hnodup
    by_cases hp : p head = true
    · rw [List.find?_cons_of_pos hp] at hfound
      obtain rfl := Option.some.inj hfound
      rw [List.eraseP_cons_of_pos hp]
      exact hnodup.1
    · rw [List.find?_cons_of_neg hp] at hfound
      rw [List.eraseP_cons_of_neg hp, List.map_cons, List.mem_cons, not_or]
      refine ⟨?_, ih hnodup.2 hfound⟩
      intro heq
      exact hnodup.1 (heq ▸ List.mem_map_of_mem (List.mem_of_find?_eq_some hfound))

end

/-! ## The numbered permits are the permits -/

/-- The numbered permits are the permits of the run, each is of the call it is numbered with, a
permit that was used up is gone, and one that was not is there until it expires. -/
structure Held (ops : List PermitOp) : Prop where
  permits : (held ops).map Prod.snd = permitsAfter ops
  granted : ∀ entry ∈ held ops, grantedBy ops entry.1 = some entry.2
  nodup : ((held ops).map Prod.fst).Nodup
  used : ∀ i j, usedBy ops i = some j → j < ops.length ∧ j ∉ (held ops).map Prod.fst
  unused : ∀ j allow now, grantedBy ops j = some allow → Clock.Reached PermitOp.readings ops now →
    allow.alive now = true → (∀ i, usedBy ops i ≠ some j) → (j, allow) ∈ held ops

theorem InviteAllow.alive_mono {allow : InviteAllow} {now later : ℕ} (hle : now ≤ later)
    (h : allow.alive later = true) : allow.alive now = true :=
  decide_eq_true (Nat.lt_of_le_of_lt hle (of_decide_eq_true h))

namespace Held

variable {before : List PermitOp} {env : PermitEnv} {args : InviteAllowArgs}

/-- **One operation.** The invariant is kept if the permits of the run are those behind it, the permit
it makes is there, the one it uses up is gone, and no other one comes or goes before it expires. -/
theorem step (h : Held before) {op : PermitOp}
    (hpermits : (held (before ++ [op])).map Prod.snd = permitsAfter (before ++ [op]))
    (hnew : ∀ entry ∈ held (before ++ [op]),
      entry ∈ held before ∨ entry.1 = before.length ∧ op.granted = some entry.2)
    (hnodup : ((held (before ++ [op])).map Prod.fst).Nodup)
    (htaken : ∀ now request, op = .invite now request → ∀ entry,
      taken (held before) now request = some entry → entry.1 ∉ (held (before ++ [op])).map Prod.fst)
    (hmade : ∀ allow, op.granted = some allow → (before.length, allow) ∈ held (before ++ [op]))
    (hkept : ∀ entry ∈ held before, ∀ now, Clock.Reached PermitOp.readings (before ++ [op]) now →
      entry.2.alive now = true → usedBy (before ++ [op]) before.length ≠ some entry.1 →
      entry ∈ held (before ++ [op])) : Held (before ++ [op]) := by
  refine ⟨hpermits, fun entry hentry => ?_, hnodup, fun i j hused => ?_,
    fun j allow now hallow hnow halive hunused => ?_⟩
  · exact grantedBy_append_singleton.mpr ((hnew entry hentry).imp_left (h.granted entry))
  · rw [List.length_append]
    rcases usedBy_append_singleton.mp hused with hused | ⟨-, now, request, hop, htook⟩
    · obtain ⟨hj, hgone⟩ := h.used i j hused
      refine ⟨Nat.lt_add_right _ hj, fun hmem => ?_⟩
      obtain ⟨entry, hentry, rfl⟩ := List.mem_map.mp hmem
      rcases hnew entry hentry with hold | ⟨hlast, -⟩
      · exact hgone (List.mem_map_of_mem hold)
      · exact absurd hlast (Nat.ne_of_lt hj)
    · obtain ⟨entry, hentry, rfl⟩ := Option.map_eq_some_iff.mp htook
      have hmem : entry ∈ held before :=
        List.mem_of_mem_filter (List.mem_of_find?_eq_some hentry)
      exact ⟨Nat.lt_add_right _ (lt_length_of_grantedBy (h.granted entry hmem)),
        htaken now request hop entry hentry⟩
  · rcases grantedBy_append_singleton.mp hallow with hallow | ⟨rfl, hop⟩
    · refine hkept (j, allow) (h.unused j allow now hallow hnow.of_append halive fun i hused => ?_)
        now hnow halive (hunused _)
      exact hunused i (usedBy_append_singleton.mpr (Or.inl hused))
    · exact hmade allow hop

/-- A call that makes no permit. -/
theorem refused (h : Held before) (hgranted : PermitOp.granted (.allowIncomingInvite env args) = none) :
    Held (before ++ [.allowIncomingInvite env args]) := by
  have hheld : held (before ++ [.allowIncomingInvite env args]) = held before := by
    rw [held_append_singleton, holdNext, hgranted]
  refine h.step ?_ (fun entry hentry => Or.inl (hheld ▸ hentry)) (hheld ▸ h.nodup)
    (fun now request hop => PermitOp.noConfusion hop) (fun allow hop => ?_)
    fun entry hentry _ _ _ _ => hheld ▸ hentry
  · rw [hheld, permitsAfter_append_singleton, permitStep_allow, hgranted]
    exact h.permits
  · exact absurd (hop.symm.trans hgranted) (Option.some_ne_none allow)

/-- A call that makes a permit. -/
theorem added (h : Held before) {item : InviteAllow}
    (hgranted : PermitOp.granted (.allowIncomingInvite env args) = some item) :
    Held (before ++ [.allowIncomingInvite env args]) := by
  have hheld : held (before ++ [.allowIncomingInvite env args]) =
      (before.length, item) :: (held before).filter fun entry => entry.2.alive env.cleanupNow := by
    rw [held_append_singleton, holdNext, hgranted]
  refine h.step ?_ (fun entry hentry => ?_) ?_ (fun now request hop => PermitOp.noConfusion hop)
    (fun allow hop => ?_) fun entry hentry now hnow halive _ => ?_
  · rw [hheld, permitsAfter_append_singleton, permitStep_allow, hgranted, List.map_cons,
      ← h.permits, List.filter_map]
    rfl
  · rw [hheld] at hentry
    rcases List.mem_cons.mp hentry with rfl | hentry
    · exact Or.inr ⟨rfl, hgranted⟩
    · exact Or.inl (List.mem_of_mem_filter hentry)
  · rw [hheld, List.map_cons, List.nodup_cons]
    refine ⟨fun hmem => ?_, h.nodup.sublist (List.filter_sublist.map Prod.fst)⟩
    obtain ⟨entry, hentry, hlast⟩ := List.mem_map.mp hmem
    exact Nat.ne_of_lt (lt_length_of_grantedBy (h.granted entry (List.mem_of_mem_filter hentry))) hlast
  · rw [hheld, Option.some.inj (hgranted.symm.trans hop)]
    exact List.mem_cons_self
  · have hcleanup : env.cleanupNow ≤ now :=
      hnow.of_mem (List.mem_append_right _ List.mem_cons_self) (by simp [PermitOp.readings])
    rw [hheld]
    exact List.mem_cons_of_mem _ (List.mem_filter.mpr ⟨hentry, InviteAllow.alive_mono hcleanup halive⟩)

/-- An INVITE, let through or not. -/
theorem invite (h : Held before) (reading : ℕ) (request : Request) :
    Held (before ++ [.invite reading request]) := by
  have hheld : held (before ++ [.invite reading request]) =
      ((held before).filter fun entry => entry.2.alive reading).eraseP
        fun entry => entry.2.admits request := by
    rw [held_append_singleton, holdNext]
  have hsub : (held (before ++ [.invite reading request])).Sublist (held before) := by
    rw [hheld]
    exact List.eraseP_sublist.trans List.filter_sublist
  refine h.step ?_ (fun entry hentry => Or.inl (hsub.subset hentry))
    (h.nodup.sublist (hsub.map Prod.fst)) (fun now other hop entry htook => ?_)
    (fun allow hop => absurd hop.symm (Option.some_ne_none allow))
    fun entry hentry now hnow halive hunused => ?_
  · rw [hheld, permitsAfter_append_singleton, permitStep_invite, ← h.permits, List.filter_map,
      List.eraseP_map]
    rfl
  · obtain ⟨rfl, rfl⟩ := PermitOp.invite.inj hop
    rw [hheld]
    exact fst_notMem_eraseP (h.nodup.sublist (List.filter_sublist.map Prod.fst)) htook
  · have hreading : reading ≤ now :=
      hnow.of_mem (List.mem_append_right _ List.mem_cons_self) List.mem_cons_self
    rw [hheld]
    apply mem_eraseP_of_ne (List.mem_filter.mpr ⟨hentry, InviteAllow.alive_mono hreading halive⟩)
    intro htook
    exact hunused (usedBy_append_singleton.mpr (Or.inr ⟨rfl, reading, request, rfl,
      congrArg (Option.map Prod.fst) htook⟩))

end Held

/-- Every run keeps the invariant. -/
theorem held_run (ops : List PermitOp) : Held ops := by
  induction ops using List.reverseRecOn with
  | nil =>
    refine ⟨rfl, ?_, List.nodup_nil, ?_, ?_⟩
    · intro entry hentry
      cases hentry
    · intro i j hused
      cases hused
    · intro j allow now hallow
      cases hallow
  | append_singleton before op ih =>
    cases op with
    | allowIncomingInvite env args =>
      rcases hgranted : PermitOp.granted (.allowIncomingInvite env args) with _ | item
      · exact ih.refused hgranted
      · exact ih.added hgranted
    | invite now request => exact ih.invite now request

section

variable {ops : List PermitOp} {i j n : ℕ} {allow : InviteAllow}

/-- A permit names its target. -/
theorem targetId_ne_nil (h : grantedBy ops j = some allow) : allow.targetId ≠ [] := by
  obtain ⟨op, -, hop⟩ := Option.bind_eq_some_iff.mp h
  cases op with
  | invite => cases hop
  | allowIncomingInvite =>
    rw [PermitOp.granted] at hop
    split_ifs at hop with hvalid
    simp only [inviteAllowArgsValid, Bool.and_eq_true] at hvalid
    obtain ⟨texts, hcopy, rfl⟩ := Option.map_eq_some_iff.mp hop
    obtain ⟨targetId, htarget, hrest⟩ := Option.bind_eq_some_iff.mp hcopy
    obtain ⟨sourceId, -, hrest⟩ := Option.bind_eq_some_iff.mp hrest
    obtain ⟨remoteAddress, -, htexts⟩ := Option.bind_eq_some_iff.mp hrest
    obtain rfl := Option.some.inj htexts
    exact copyView_ne_nil hvalid.1.1.1.1.2 htarget

theorem usedBy_take (h : i < n) : usedBy (ops.take n) i = usedBy ops i := by
  rw [usedBy, List.getElem?_take_of_lt h, List.take_take, Nat.min_eq_left (Nat.le_of_lt h), usedBy]

theorem grantedBy_take (h : j < n) : grantedBy (ops.take n) j = grantedBy ops j := by
  rw [grantedBy, List.getElem?_take_of_lt h, grantedBy]

/-- What is used up is a permit of the list that is for the INVITE. -/
theorem usedBy_eq_some (h : usedBy ops i = some j) :
    ∃ allow now request, ops[i]? = some (.invite now request) ∧ (j, allow) ∈ held (ops.take i) ∧
      allow.alive now = true ∧ allow.admits request = true := by
  unfold usedBy at h
  split at h
  · next now request hop =>
      obtain ⟨⟨_, allow⟩, htaken, rfl⟩ := Option.map_eq_some_iff.mp h
      rw [taken] at htaken
      obtain ⟨hmem, halive⟩ := List.mem_filter.mp (List.mem_of_find?_eq_some htaken)
      have hadmits := List.find?_some htaken
      exact ⟨allow, now, request, hop, hmem, halive, hadmits⟩
  · cases h

/-- An INVITE is let through when it uses up a permit. -/
theorem letThrough_iff : (∃ j, usedBy ops i = some j) ↔ LetThrough ops i := by
  constructor
  · rintro ⟨j, hused⟩
    obtain ⟨allow, now, request, hop, hmem, halive, hadmits⟩ := usedBy_eq_some hused
    refine ⟨now, request, hop, ?_⟩
    rw [consumeIncomingInviteAllow, consumeLoop_eq, ← (held_run _).permits, List.any_eq_true]
    exact ⟨allow, List.mem_filter.mpr ⟨List.mem_map_of_mem hmem, halive⟩, hadmits⟩
  · rintro ⟨now, request, hop, hconsume⟩
    rw [consumeIncomingInviteAllow, consumeLoop_eq, ← (held_run _).permits, List.any_eq_true]
      at hconsume
    obtain ⟨allow, hallow, hadmits⟩ := hconsume
    obtain ⟨hmem, halive⟩ := List.mem_filter.mp hallow
    obtain ⟨entry, hentry, rfl⟩ := List.mem_map.mp hmem
    have htaken : (taken (held (ops.take i)) now request).isSome = true :=
      List.find?_isSome.mpr ⟨entry, List.mem_filter.mpr ⟨hentry, halive⟩, hadmits⟩
    obtain ⟨found, hfound⟩ := Option.isSome_iff_exists.mp htaken
    refine ⟨found.1, ?_⟩
    rw [usedBy, hop]
    exact congrArg (Option.map Prod.fst) hfound

/-- No permit is used up twice. -/
theorem usedBy_injective {i' : ℕ} (h : usedBy ops i = some j) (h' : usedBy ops i' = some j) :
    i = i' := by
  have hlater : ∀ {first second}, usedBy ops first = some j → usedBy ops second = some j →
      ¬ first < second := by
    intro first second hfirst hsecond hlt
    obtain ⟨allow, -, -, -, hmem, -, -⟩ := usedBy_eq_some hsecond
    rw [← usedBy_take hlt] at hfirst
    exact ((held_run _).used first j hfirst).2 (List.mem_map_of_mem hmem)
  have hle := Nat.not_lt.mp (hlater h' h)
  exact Nat.le_antisymm hle (Nat.not_lt.mp (hlater h h'))

/-- The unexpired permits behind the first `n` operations are those that were not used up. -/
theorem mem_held_take {now : ℕ} (hnow : Clock.Reached PermitOp.readings (ops.take n) now)
    (halive : allow.alive now = true) : (j, allow) ∈ held (ops.take n) ↔
      j < n ∧ grantedBy ops j = some allow ∧ ∀ i < n, usedBy ops i ≠ some j := by
  constructor
  · intro hmem
    have hgranted := (held_run (ops.take n)).granted _ hmem
    have hlt : j < n := by
      have hlength := lt_length_of_grantedBy hgranted
      rw [List.length_take] at hlength
      exact Nat.lt_of_lt_of_le hlength (Nat.min_le_left _ _)
    refine ⟨hlt, (grantedBy_take hlt).symm.trans hgranted, fun i hi hused => ?_⟩
    rw [← usedBy_take hi] at hused
    exact ((held_run _).used i j hused).2 (List.mem_map_of_mem hmem)
  · rintro ⟨hlt, hgranted, hunused⟩
    refine (held_run _).unused j allow now ((grantedBy_take hlt).trans hgranted) hnow halive ?_
    intro i hused
    rcases Nat.lt_or_ge i n with hi | hi
    · exact hunused i hi ((usedBy_take hi).symm.trans hused)
    · rw [usedBy, List.getElem?_eq_none (by rw [List.length_take]; omega)] at hused
      cases hused

end

/-- **Permits are used once and for the right INVITE.** For every run there is a map from INVITEs to
calls such that

* the INVITEs that are let through are those with a call, and no two have the same call;
* the call was made earlier, and its permit has not expired and is for the INVITE;
* at any point of the run, the permits that have not expired are those of the calls that no INVITE
  was mapped to so far;
* an INVITE is refused only when none of these is for it. -/
theorem invite_permits_one_shot (ops : List PermitOp) (hclock : Clock.Runs PermitOp.readings ops) :
    ∃ use : ℕ → Option ℕ, (∀ i, (∃ j, use i = some j) ↔ LetThrough ops i) ∧
      (∀ i i' j, use i = some j → use i' = some j → i = i') ∧
      (∀ i j, use i = some j → j < i ∧ ∃ allow now request, grantedBy ops j = some allow ∧
        ops[i]? = some (.invite now request) ∧ now < allow.expiresAtMs ∧ allow.Admits request) ∧
      (∀ n now, n ≤ ops.length → Clock.Reached PermitOp.readings (ops.take n) now →
        ∃ calls : List ℕ, calls.Nodup ∧ calls.map (grantedBy ops) =
            ((permitsAfter (ops.take n)).filter (InviteAllow.alive now)).map some ∧
          ∀ j, j ∈ calls ↔ j < n ∧ (∃ allow, grantedBy ops j = some allow ∧ now < allow.expiresAtMs) ∧
            ∀ i < n, use i ≠ some j) ∧
      ∀ i now request, ops[i]? = some (.invite now request) → ¬ LetThrough ops i →
        ∀ j < i, ∀ allow, grantedBy ops j = some allow → (∀ i' < i, use i' ≠ some j) →
          now < allow.expiresAtMs → ¬ allow.Admits request := by
  refine ⟨usedBy ops, fun i => letThrough_iff, fun i i' j => usedBy_injective, ?_, ?_, ?_⟩
  · intro i j hused
    obtain ⟨allow, now, request, hop, hmem, halive, hadmits⟩ := usedBy_eq_some hused
    have hgranted := (held_run _).granted _ hmem
    have hlt : j < i := by
      have hlength := lt_length_of_grantedBy hgranted
      rw [List.length_take] at hlength
      exact Nat.lt_of_lt_of_le hlength (Nat.min_le_left _ _)
    rw [grantedBy_take hlt] at hgranted
    exact ⟨hlt, allow, now, request, hgranted, hop, of_decide_eq_true halive,
      (InviteAllow.admits_iff (targetId_ne_nil hgranted)).mp hadmits⟩
  · intro n now _ hnow
    have hheld := held_run (ops.take n)
    let entries := (held (ops.take n)).filter fun entry => entry.2.alive now
    refine ⟨entries.map Prod.fst, hheld.nodup.sublist (List.filter_sublist.map Prod.fst), ?_, ?_⟩
    · rw [← hheld.permits, List.filter_map, List.map_map, List.map_map]
      refine List.map_congr_left fun entry hentry => ?_
      obtain ⟨hmem, halive⟩ := List.mem_filter.mp hentry
      exact ((mem_held_take hnow halive).mp hmem).2.1
    · intro j
      constructor
      · intro hj
        obtain ⟨entry, hentry, rfl⟩ := List.mem_map.mp hj
        obtain ⟨hmem, halive⟩ := List.mem_filter.mp hentry
        obtain ⟨hlt, hgranted, hunused⟩ := (mem_held_take hnow halive).mp hmem
        exact ⟨hlt, ⟨entry.2, hgranted, of_decide_eq_true halive⟩, hunused⟩
      · rintro ⟨hlt, ⟨allow, hgranted, hexpires⟩, hunused⟩
        have halive : allow.alive now = true := decide_eq_true hexpires
        have hmem := (mem_held_take hnow halive).mpr ⟨hlt, hgranted, hunused⟩
        exact List.mem_map_of_mem (List.mem_filter.mpr ⟨hmem, halive⟩)
  · intro i now request hop hrefused j hlt allow hgranted hunused hexpires hadmits
    have halive : allow.alive now = true := decide_eq_true hexpires
    have hsplit : ops = ops.take i ++ .invite now request :: ops.drop (i + 1) := by
      obtain ⟨hi, hget⟩ := List.getElem?_eq_some_iff.mp hop
      rw [← hget, List.getElem_cons_drop, List.take_append_drop]
    have hnow : Clock.Reached PermitOp.readings (ops.take i) now := by
      rw [hsplit] at hclock
      exact hclock.reached List.mem_cons_self
    have hmem := (mem_held_take hnow halive).mpr ⟨hlt, hgranted, hunused⟩
    refine hrefused ⟨now, request, hop, ?_⟩
    rw [consumeIncomingInviteAllow, consumeLoop_eq, ← (held_run _).permits, List.any_eq_true]
    exact ⟨allow, List.mem_filter.mpr ⟨List.mem_map_of_mem hmem, halive⟩,
      (InviteAllow.admits_iff (targetId_ne_nil hgranted)).mpr hadmits⟩

/-- A permit for one device and two INVITEs it is for. -/
def samplePermitOps : List PermitOp :=
  let address := ascii "10.0.0.1"
  let uri user : Option Uri := some (.sip ⟨user, address, 5060, []⟩)
  let msg : SipMsg :=
    ⟨.invite, uri (ascii "3402"), uri (ascii "1301"), [], some (ascii "c"), some 1, none, none⟩
  let request : Request :=
    ⟨⟨⟨.udp, 0, address, 5060⟩, [], msg⟩, uri (ascii "3402"), some (ascii "1301:0,3402:0"),
      ascii "INVITE", some (ascii "z9hG4bK1")⟩
  [.allowIncomingInvite ⟨true, 0, 0⟩ ⟨inviteAllowSize, abiVersion, .udp, .bytes (ascii "1301"),
      .bytes (ascii "3402"), .bytes address, 1000⟩,
    .invite 10 request, .invite 20 request]

theorem invite_permits_one_shot_sample :
    Clock.Runs PermitOp.readings samplePermitOps ∧ LetThrough samplePermitOps 1 ∧
      ∃ use : ℕ → Option ℕ, use 1 = some 0 ∧ ∀ i, use i = some 0 → i = 1 := by
  have hclock : Clock.Runs PermitOp.readings samplePermitOps := by decide
  have hthrough : LetThrough samplePermitOps 1 := ⟨_, _, rfl, by decide⟩
  obtain ⟨use, hlet, hinjective, hcall, -⟩ := invite_permits_one_shot samplePermitOps hclock
  obtain ⟨j, hj⟩ := (hlet 1).mpr hthrough
  obtain rfl : j = 0 := Nat.lt_one_iff.mp (hcall 1 j hj).1
  exact ⟨hclock, hthrough, use, hj, fun i hi => hinjective i 1 0 hi hj⟩

end GmvPjsip.Access
