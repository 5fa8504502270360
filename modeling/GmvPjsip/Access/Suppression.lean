import GmvPjsip.Access.Dispatch
import GmvPjsip.Access.RecentRequests
import GmvPjsip.Auth.Spec
import GmvPjsip.Lib.Search

/-!
# Whose duplicate a request is

The dispatcher takes a request for a duplicate if it has seen the same key before. The key is a text of
the transport, the association, the Call-ID, the CSeq and the branch; where the request came from and who
sent it are not in it.

* `decimal_injective`, `requestDedupeKey_eq`: equal keys have the same transport and association, and the
  same text behind them; if that text can be taken apart, the same Call-ID, CSeq, method and branch.
* `requestDedupeKey_injective`: if there is no bar in the method and the branch, equal keys have the same
  fields, whatever bars the Call-ID has.
* `Dispatched` is a runtime whose cache was filled by the dispatcher. `Remembered`: the key of a request is
  in the cache and has not expired. `Suppressed` is a request that the dispatcher takes for a duplicate,
  and `SuppressedAs` one that it takes for a duplicate of a certain request.
* `recentRequestSeen_iff`: a request is taken for a duplicate exactly if its key is remembered.
* `duplicate_same_channel`: in every run, a request that is suppressed is not reported, and came over the
  same transport and association as those it is a duplicate of. That one device cannot suppress requests
  of another means that requests with the same key have the same address and sender.
  `duplicate_of_other_device` has two with the same key of which neither agrees.
-/

namespace GmvPjsip.Access

open GmvPjsip.Auth GmvPjsip.Lib

/-! ## Keys -/

section keys

theorem toNat_le_of_isDigit {c : Char} (h : c.isDigit = true) : 48 ≤ c.toNat ∧ c.toNat ≤ 57 := by
  simp only [Char.isDigit, Bool.and_eq_true, decide_eq_true_eq] at h
  exact ⟨h.1, h.2⟩

/-- The digits can be read back. -/
theorem map_ofNat_decimal (n : ℕ) :
    (decimal n).map (fun byte => Char.ofNat byte.toNat) = Nat.toDigits 10 n := by
  rw [decimal, List.map_map]
  refine (List.map_congr_left fun c hc => ?_).trans (List.map_id _)
  have hdigit := (toNat_le_of_isDigit (Nat.isDigit_of_mem_toDigits (by decide) (by decide) hc)).2
  have hbyte : c.toNat.toUInt8.toNat = c.toNat := by
    rw [Nat.toUInt8, UInt8.toNat_ofNat']
    exact Nat.mod_eq_of_lt (by omega)
  show Char.ofNat c.toNat.toUInt8.toNat = c
  rw [hbyte, Char.ofNat_toNat]

theorem decimal_injective : Function.Injective decimal := by
  intro n m h
  have hdigits : Nat.toDigits 10 n = Nat.toDigits 10 m := by
    rw [← map_ofNat_decimal, ← map_ofNat_decimal, h]
  have hvalue := congrArg (fun digits => Nat.ofDigitChars 10 digits 0) hdigits
  simpa only [Nat.ofDigitChars_ten_toDigits] using hvalue

/-- The bytes of a decimal are digits. -/
theorem mem_decimal {n : ℕ} {byte : UInt8} (h : byte ∈ decimal n) : 48 ≤ byte ∧ byte ≤ 57 := by
  obtain ⟨c, hc, rfl⟩ := List.mem_map.mp h
  obtain ⟨hlow, hhigh⟩ := toNat_le_of_isDigit (Nat.isDigit_of_mem_toDigits (by decide) (by decide) hc)
  rw [UInt8.le_iff_toNat_le, UInt8.le_iff_toNat_le, Nat.toUInt8, UInt8.toNat_ofNat',
    Nat.mod_eq_of_lt (by omega)]
  exact ⟨hlow, hhigh⟩

/-- The byte that separates the fields. -/
def bar : UInt8 := 124

theorem bar_notMem_decimal (n : ℕ) : bar ∉ decimal n := fun h => absurd (mem_decimal h).2 (by decide)

theorem bar_notMem_signedDecimal (n : ℤ) : bar ∉ signedDecimal n := by
  cases n with
  | ofNat n => exact bar_notMem_decimal n
  | negSucc =>
    intro h
    rcases List.mem_append.mp h with hsign | hdigits
    · exact absurd hsign (by decide)
    · exact bar_notMem_decimal _ hdigits

theorem signedDecimal_injective : Function.Injective signedDecimal := by
  have hsign : ∀ n m : ℕ, decimal n ≠ ascii "-" ++ decimal m := by
    intro n m h
    have hmem : (45 : UInt8) ∈ decimal n := h ▸ List.mem_append_left _ (by decide)
    exact absurd (mem_decimal hmem).1 (by decide)
  intro n m h
  cases n with
  | ofNat n =>
    cases m with
    | ofNat => rw [decimal_injective h]
    | negSucc m => exact absurd h (hsign n (m + 1))
  | negSucc n =>
    cases m with
    | ofNat m => exact absurd h.symm (hsign m (n + 1))
    | negSucc => rw [Nat.succ.inj (decimal_injective (List.append_cancel_left h))]

/-- The text behind the transport and the association. -/
def keyText (callId : Bytes) (cseq : ℤ) (method branch : Bytes) : Bytes :=
  upToNul callId ++ bar :: (signedDecimal cseq ++ bar :: (upToNul method ++ bar :: upToNul branch))

/-- What the key of a request is made of. -/
theorem requestDedupeKey_eq {request : Request} {key : Bytes}
    (h : requestDedupeKey request = some key) :
    ∃ callId cseq branch, request.rx.msg.callId = some callId ∧ request.rx.msg.cseq = some cseq ∧
      request.viaBranch = some branch ∧
      key = decimal (transportNumber request.rx.origin.transport) ++
        bar :: (decimal request.rx.origin.associationId ++
          bar :: keyText callId cseq request.cseqMethod branch) := by
  simp only [requestDedupeKey, Option.bind_eq_bind, Option.bind_eq_some_iff] at h
  obtain ⟨callId, hcallId, cseq, hcseq, branch, hbranch, hkey⟩ := h
  split_ifs at hkey
  refine ⟨callId, cseq, branch, hcallId, hcseq, hbranch, ?_⟩
  rw [← Option.some.inj hkey]
  simp only [keyText, List.append_assoc]
  rfl

theorem transportNumber_injective : Function.Injective transportNumber := by
  intro a b h
  cases a <;> cases b <;> first | rfl | cases h

/-- Two requests came over the same transport and association. -/
structure SameChannel (first second : Request) : Prop where
  transport : first.rx.origin.transport = second.rx.origin.transport
  association : first.rx.origin.associationId = second.rx.origin.associationId

/-- Two requests came from the same source: transport, association, remote address and From user. -/
structure SameSource (first second : Request) : Prop extends SameChannel first second where
  address : first.rx.origin.sourceName = second.rx.origin.sourceName
  user : fromUser first = fromUser second

/-- Two requests have the same Call-ID, CSeq, method and branch. -/
structure SameIds (first second : Request) : Prop where
  callId : first.rx.msg.callId = second.rx.msg.callId
  cseq : first.rx.msg.cseq = second.rx.msg.cseq
  method : first.cseqMethod = second.cseqMethod
  branch : first.viaBranch = second.viaBranch

/-- The text of a request can be taken apart: no NUL in it, and no bar in the Call-ID and the method. -/
structure Plain (request : Request) : Prop where
  callId : ∀ callId, request.rx.msg.callId = some callId → 0 ∉ callId ∧ bar ∉ callId
  method : 0 ∉ request.cseqMethod ∧ bar ∉ request.cseqMethod
  branch : ∀ branch, request.viaBranch = some branch → 0 ∉ branch

theorem upToNul_of_notMem {text : Bytes} (h : 0 ∉ text) : upToNul text = text := by
  induction text with
  | nil => rfl
  | cons byte rest ih =>
    obtain ⟨hbyte, hrest⟩ := not_or.mp (fun hmem => h (List.mem_cons.mpr hmem))
    rw [upToNul, List.takeWhile_cons_of_pos (by exact decide_eq_true (Ne.symm hbyte))]
    exact congrArg (byte :: ·) (ih hrest)

variable {first second : Request} {key : Bytes}

/-- **Equal keys come over the same channel.** -/
theorem sameChannel_of_key (hfirst : requestDedupeKey first = some key)
    (hsecond : requestDedupeKey second = some key) : SameChannel first second := by
  obtain ⟨callId, cseq, branch, -, -, -, hkey⟩ := requestDedupeKey_eq hfirst
  obtain ⟨callId', cseq', branch', -, -, -, hkey'⟩ := requestDedupeKey_eq hsecond
  rw [hkey, append_cons_inj (bar_notMem_decimal _) (bar_notMem_decimal _),
    append_cons_inj (bar_notMem_decimal _) (bar_notMem_decimal _)] at hkey'
  exact ⟨transportNumber_injective (decimal_injective hkey'.1), decimal_injective hkey'.2.1⟩

/-- Equal keys have the same text behind the channel. -/
theorem keyText_eq_of_key (hfirst : requestDedupeKey first = some key)
    (hsecond : requestDedupeKey second = some key) :
    ∃ callId cseq branch callId' cseq' branch',
      (first.rx.msg.callId = some callId ∧ first.rx.msg.cseq = some cseq ∧
        first.viaBranch = some branch) ∧
      (second.rx.msg.callId = some callId' ∧ second.rx.msg.cseq = some cseq' ∧
        second.viaBranch = some branch') ∧
      keyText callId cseq first.cseqMethod branch =
        keyText callId' cseq' second.cseqMethod branch' := by
  obtain ⟨callId, cseq, branch, hcallId, hcseq, hbranch, hkey⟩ := requestDedupeKey_eq hfirst
  obtain ⟨callId', cseq', branch', hcallId', hcseq', hbranch', hkey'⟩ := requestDedupeKey_eq hsecond
  rw [hkey, append_cons_inj (bar_notMem_decimal _) (bar_notMem_decimal _),
    append_cons_inj (bar_notMem_decimal _) (bar_notMem_decimal _)] at hkey'
  exact ⟨callId, cseq, branch, callId', cseq', branch', ⟨hcallId, hcseq, hbranch⟩,
    ⟨hcallId', hcseq', hbranch'⟩, hkey'.2.2⟩

theorem keyText_of_notMem {callId method branch : Bytes} (cseq : ℤ) (hcallId : 0 ∉ callId)
    (hmethod : 0 ∉ method) (hbranch : 0 ∉ branch) :
    keyText callId cseq method branch =
      callId ++ bar :: (signedDecimal cseq ++ bar :: (method ++ bar :: branch)) := by
  rw [keyText, upToNul_of_notMem hcallId, upToNul_of_notMem hmethod, upToNul_of_notMem hbranch]

/-- Equal keys that can be taken apart have the same fields. -/
theorem sameIds_of_key (hfirst : requestDedupeKey first = some key)
    (hsecond : requestDedupeKey second = some key) (hplain : Plain first) (hplain' : Plain second) :
    SameIds first second := by
  obtain ⟨callId, cseq, branch, callId', cseq', branch', ⟨hcallId, hcseq, hbranch⟩,
    ⟨hcallId', hcseq', hbranch'⟩, htext⟩ := keyText_eq_of_key hfirst hsecond
  obtain ⟨hnul, hbar⟩ := hplain.callId callId hcallId
  obtain ⟨hnul', hbar'⟩ := hplain'.callId callId' hcallId'
  rw [keyText_of_notMem cseq hnul hplain.method.1 (hplain.branch branch hbranch),
    keyText_of_notMem cseq' hnul' hplain'.method.1 (hplain'.branch branch' hbranch'),
    append_cons_inj hbar hbar',
    append_cons_inj (bar_notMem_signedDecimal _) (bar_notMem_signedDecimal _),
    append_cons_inj hplain.method.2 hplain'.method.2] at htext
  obtain ⟨rfl, hsigned, hmethod, rfl⟩ := htext
  rw [signedDecimal_injective hsigned] at hcseq
  exact ⟨hcallId.trans hcallId'.symm, hcseq.trans hcseq'.symm, hmethod, hbranch.trans hbranch'.symm⟩

/-- The text of a request can be taken apart from its end: no NUL in it, and no bar in the method and the
branch. The Call-ID may have bars. -/
structure PlainEnd (request : Request) : Prop where
  callId : ∀ callId, request.rx.msg.callId = some callId → 0 ∉ callId
  method : 0 ∉ request.cseqMethod ∧ bar ∉ request.cseqMethod
  branch : ∀ branch, request.viaBranch = some branch → 0 ∉ branch ∧ bar ∉ branch

/-- **The key is injective.** The channel is read from the front, where the decimals have no bar, and the
other fields from the back: the branch, the method and the CSeq are cut off at the last three bars, and
what is left is the Call-ID with the bars of its own. -/
theorem requestDedupeKey_injective (hfirst : requestDedupeKey first = some key)
    (hsecond : requestDedupeKey second = some key) (hend : PlainEnd first)
    (hend' : PlainEnd second) : SameChannel first second ∧ SameIds first second := by
  refine ⟨sameChannel_of_key hfirst hsecond, ?_⟩
  obtain ⟨callId, cseq, branch, callId', cseq', branch', ⟨hcallId, hcseq, hbranch⟩,
    ⟨hcallId', hcseq', hbranch'⟩, htext⟩ := keyText_eq_of_key hfirst hsecond
  obtain ⟨hnul, hbar⟩ := hend.branch branch hbranch
  obtain ⟨hnul', hbar'⟩ := hend'.branch branch' hbranch'
  -- the fields in front of a bar are read as one text, which is cut at its own last bar next
  have hassoc : ∀ callId signed method branch : Bytes,
      callId ++ bar :: (signed ++ bar :: (method ++ bar :: branch)) =
        ((callId ++ bar :: signed) ++ bar :: method) ++ bar :: branch := by
    intro callId signed method branch
    simp only [List.append_assoc, List.cons_append]
  rw [keyText_of_notMem cseq (hend.callId callId hcallId) hend.method.1 hnul,
    keyText_of_notMem cseq' (hend'.callId callId' hcallId') hend'.method.1 hnul', hassoc, hassoc,
    append_cons_inj_last hbar hbar', append_cons_inj_last hend.method.2 hend'.method.2,
    append_cons_inj_last (bar_notMem_signedDecimal _) (bar_notMem_signedDecimal _)] at htext
  obtain ⟨⟨⟨rfl, hsigned⟩, hmethod⟩, rfl⟩ := htext
  rw [signedDecimal_injective hsigned] at hcseq
  exact ⟨hcallId.trans hcallId'.symm, hcseq.trans hcseq'.symm, hmethod, hbranch.trans hbranch'.symm⟩

/-- A request with a bar in its Call-ID, from an address. -/
def barredCallId (address : Bytes) : Request :=
  let msg : SipMsg :=
    ⟨.other (ascii "MESSAGE"), none, none, [], some (ascii "a|-2|b"), some (-1), none, none⟩
  ⟨⟨⟨.tcp, 7, address, 5060⟩, [], msg⟩, none, none, ascii "MESSAGE", some (ascii "z9")⟩

/-- It is received from two addresses. -/
theorem requestDedupeKey_injective_barred :
    let first := barredCallId (ascii "10.0.0.1")
    let second := barredCallId (ascii "10.0.0.2")
    requestDedupeKey first = some (ascii "2|7|a|-2|b|-1|MESSAGE|z9") ∧
      SameChannel first second ∧ SameIds first second := by
  intro first second
  have hkey : requestDedupeKey first = some (ascii "2|7|a|-2|b|-1|MESSAGE|z9") := by decide +kernel
  have hkey' : requestDedupeKey second = some (ascii "2|7|a|-2|b|-1|MESSAGE|z9") := by
    decide +kernel
  have hend : ∀ address, PlainEnd (barredCallId address) := by
    intro address
    have hmethod : 0 ∉ ascii "MESSAGE" ∧ bar ∉ ascii "MESSAGE" := by decide
    refine ⟨fun callId h => ?_, hmethod, fun branch h => ?_⟩
    · rw [← Option.some.inj h]
      decide
    · rw [← Option.some.inj h]
      decide
  exact ⟨hkey, requestDedupeKey_injective hkey hkey' (hend _) (hend _)⟩

end keys

/-! ## Where cached keys come from -/

section cache

/-- The sweep leaves the requests that have not expired. -/
theorem cleanupRecentRequests_requests (now : ℕ) (requests : List RecentRequest) (count : ℕ) :
    (cleanupRecentRequests now requests count).requests =
      requests.filter fun item => now < item.expiresAtMs := by
  induction requests generalizing count with
  | nil => rfl
  | cons request rest ih =>
    unfold cleanupRecentRequests
    by_cases hlive : now < request.expiresAtMs
    · rw [if_pos hlive, List.filter_cons, if_pos (decide_eq_true hlive), ← ih count]
    · rw [if_neg hlive, List.filter_cons, if_neg (by simpa using hlive), ih]

theorem trimRecentRequests_sublist (count : ℕ) (requests : List RecentRequest) :
    (trimRecentRequests count requests).requests.Sublist requests := by
  induction count generalizing requests with
  | zero => exact List.Sublist.refl _
  | succ count ih =>
    unfold trimRecentRequests
    split_ifs
    · exact (ih _).trans (List.dropLast_sublist requests)
    · exact List.Sublist.refl _

/-- The key of a request is in the cache and has not expired. -/
def Remembered (now : ℕ) (cache : RecentRequests) (request : Request) : Prop :=
  ∃ item ∈ cache.requests, now < item.expiresAtMs ∧ requestDedupeKey request = some item.key

/-- A look-up caches the key of its request and no other, whatever the allocation does. -/
theorem recentRequestSeen_keys (now : ℕ) (callocOk : Bool) (request : Request)
    (cache : RecentRequests) :
    ∀ item ∈ (recentRequestSeen now callocOk request cache).2.requests,
      item.key ∈ cache.requests.map RecentRequest.key ∨ requestDedupeKey request = some item.key := by
  unfold recentRequestSeen
  rcases requestDedupeKey request with _ | key
  · exact fun item hitem => Or.inl (List.mem_map_of_mem hitem)
  simp only
  have hold : ∀ item ∈ (cleanupRecentRequests now cache.requests cache.count).requests,
      item.key ∈ cache.requests.map RecentRequest.key := by
    intro item hitem
    rw [cleanupRecentRequests_requests] at hitem
    exact List.mem_map_of_mem (List.mem_of_mem_filter hitem)
  generalize cleanupRecentRequests now cache.requests cache.count = live at hold ⊢
  rcases touchRecentRequest_cases key (u64 (now + duplicateRequestTtlMs)) live.requests with
    ⟨hnone, -⟩ | ⟨newer, found, older, hsplit, rfl, htouch⟩
  · simp only [hnone]
    cases callocOk with
    | false => exact fun item hitem => Or.inl (hold item hitem)
    | true =>
      intro item hitem
      rcases List.mem_cons.mp ((trimRecentRequests_sublist _ _).subset hitem) with rfl | hmem
      · exact Or.inr rfl
      · exact Or.inl (hold item hmem)
  · simp only [htouch]
    intro item hitem
    rcases List.mem_append.mp hitem with hnewer | htail
    · exact Or.inl (hold item (hsplit ▸ List.mem_append_left _ hnewer))
    · rcases List.mem_cons.mp htail with rfl | holder
      · exact Or.inr rfl
      · exact Or.inl (hold item (hsplit ▸ List.mem_append_right _ (List.mem_cons_of_mem _ holder)))

/-- **A request is taken for a duplicate exactly if its key is remembered.** -/
theorem recentRequestSeen_iff (now : ℕ) (callocOk : Bool) (request : Request) (cache : RecentRequests) :
    (recentRequestSeen now callocOk request cache).1 = true ↔ Remembered now cache request := by
  unfold recentRequestSeen Remembered
  rcases hrequest : requestDedupeKey request with _ | key
  · refine iff_of_false Bool.false_ne_true ?_
    rintro ⟨item, -, -, hkey⟩
    cases hkey
  simp only
  have hlive := cleanupRecentRequests_requests now cache.requests cache.count
  generalize cleanupRecentRequests now cache.requests cache.count = live at hlive ⊢
  rcases touchRecentRequest_cases key (u64 (now + duplicateRequestTtlMs)) live.requests with
    ⟨hnone, hnot⟩ | ⟨newer, found, older, hsplit, rfl, htouch⟩
  · have hseen : ∀ rest : RecentRequests, ¬(false, rest).1 = true := fun _ => Bool.false_ne_true
    refine iff_of_false ?_ ?_
    · simp only [hnone]
      cases callocOk <;> exact hseen _
    · rintro ⟨item, hitem, hunexpired, hkey⟩
      obtain rfl := Option.some.inj hkey
      refine hnot (List.mem_map_of_mem ?_)
      rw [hlive]
      exact List.mem_filter.mpr ⟨hitem, decide_eq_true hunexpired⟩
  · simp only [htouch, true_iff]
    have hfound : found ∈ live.requests := hsplit ▸ List.mem_append_right _ List.mem_cons_self
    rw [hlive] at hfound
    obtain ⟨hmem, hunexpired⟩ := List.mem_filter.mp hfound
    exact ⟨found, hmem, of_decide_eq_true hunexpired, rfl⟩

variable (pj : Pjsip) (env : RequestEnv) (rt : RxRuntime) (transaction : ℕ) (request : Request)

theorem reportRequest_recent (kind : RequestKind) :
    (reportRequest pj env rt transaction kind request).runtime.recentRequests =
      rt.recentRequests := by
  cases kind <;> rfl

theorem handleRequest_recent (kind : RequestKind) :
    (handleRequest pj env rt transaction kind request).runtime.recentRequests = rt.recentRequests ∨
      (handleRequest pj env rt transaction kind request).runtime.recentRequests =
        (recentRequestSeen env.recentNow env.recentCalloc request rt.recentRequests).2 := by
  unfold handleRequest
  by_cases hregister : kind = .register
  · rw [if_pos hregister]
    exact Or.inl (reportRequest_recent pj env rt transaction request kind)
  · rw [if_neg hregister]
    refine Or.inr ?_
    simp only
    split_ifs
    · exact reportRequest_recent pj env _ transaction request kind
    · rfl
    · rfl

/-- The dispatcher changes the cache by a look-up or not at all. -/
theorem onRxRequest_recent :
    (onRxRequest pj env rt transaction request).runtime.recentRequests = rt.recentRequests ∨
      (onRxRequest pj env rt transaction request).runtime.recentRequests =
        (recentRequestSeen env.recentNow env.recentCalloc request rt.recentRequests).2 := by
  unfold onRxRequest
  rcases requestKind request.rx.msg.method with _ | kind
  · exact Or.inl rfl
  simp only
  split_ifs
  · exact Or.inl rfl
  · exact handleRequest_recent pj env _ transaction request kind
  · exact Or.inl rfl
  · refine Or.inl ?_
    unfold handleIncomingInvite
    simp only
    split_ifs
    all_goals try rfl
    split <;> rfl
  · exact handleRequest_recent pj env rt transaction request kind

end cache

/-! ## Duplicates -/

/-- A request that arrives at the dispatcher, with what it meets. -/
structure Arrival where
  env : RequestEnv
  transaction : ℕ
  request : Request

/-- A runtime whose cache was filled by these requests. What else happens to the runtime leaves the
cache alone or empties it. -/
inductive Dispatched (pj : Pjsip) : List Arrival → RxRuntime → Prop
  | fresh (rt : RxRuntime) (hempty : rt.recentRequests.requests = []) : Dispatched pj [] rt
  | other {arrivals : List Arrival} {rt : RxRuntime} (rt' : RxRuntime)
      (hrun : Dispatched pj arrivals rt)
      (hcache : rt'.recentRequests = rt.recentRequests ∨ rt'.recentRequests.requests = []) :
      Dispatched pj arrivals rt'
  | request {arrivals : List Arrival} {rt : RxRuntime} (a : Arrival)
      (hrun : Dispatched pj arrivals rt) :
      Dispatched pj (arrivals ++ [a]) (onRxRequest pj a.env rt a.transaction a.request).runtime

/-- A request gets as far as the look-up. -/
structure Checked (env : RequestEnv) (rt : RxRuntime) (kind : RequestKind) (request : Request) :
    Prop where
  method : requestKind request.rx.msg.method = some kind
  looked : kind ≠ .register ∧ kind ≠ .invite
  source : kind.needsSource = true → (checkSource env rt kind request).1 = true

/-- The dispatcher takes a request for a duplicate. -/
structure Suppressed (env : RequestEnv) (rt : RxRuntime) (kind : RequestKind) (request : Request) :
    Prop extends Checked env rt kind request where
  seen : (recentRequestSeen env.recentNow env.recentCalloc request rt.recentRequests).1 = true

/-- The dispatcher takes a request for a duplicate of `first`. -/
structure SuppressedAs (env : RequestEnv) (rt : RxRuntime) (kind : RequestKind)
    (first second : Request) : Prop extends Suppressed env rt kind second where
  key : requestDedupeKey first = requestDedupeKey second

/-- **The keys in the cache are those of requests that arrived.** -/
theorem Dispatched.arrived {pj : Pjsip} {arrivals : List Arrival} {rt : RxRuntime}
    (h : Dispatched pj arrivals rt) :
    ∀ item ∈ rt.recentRequests.requests,
      ∃ a ∈ arrivals, requestDedupeKey a.request = some item.key := by
  induction h with
  | fresh rt hempty =>
    rw [hempty]
    exact fun item hitem => absurd hitem List.not_mem_nil
  | other rt' hrun hcache ih =>
    rcases hcache with hsame | hempty
    · rw [hsame]
      exact ih
    · rw [hempty]
      exact fun item hitem => absurd hitem List.not_mem_nil
  | @request arrivals rt a hrun ih =>
    have hold : ∀ key ∈ rt.recentRequests.requests.map RecentRequest.key,
        ∃ b ∈ arrivals ++ [a], requestDedupeKey b.request = some key := by
      intro key hkey
      obtain ⟨item, hitem, rfl⟩ := List.mem_map.mp hkey
      obtain ⟨b, hb, hkey⟩ := ih item hitem
      exact ⟨b, List.mem_append_left _ hb, hkey⟩
    intro item hitem
    rcases onRxRequest_recent pj a.env rt a.transaction a.request with hsame | hlooked
    · rw [hsame] at hitem
      exact hold item.key (List.mem_map_of_mem hitem)
    · rw [hlooked] at hitem
      rcases recentRequestSeen_keys a.env.recentNow a.env.recentCalloc a.request
        rt.recentRequests item hitem with hkey | hnew
      · exact hold item.key hkey
      · exact ⟨a, List.mem_append_right _ List.mem_cons_self, hnew⟩

/-- A request that is suppressed is not reported. -/
theorem suppressed_not_reported {pj : Pjsip} {env : RequestEnv} {rt : RxRuntime} {transaction : ℕ}
    {kind : RequestKind} {request : Request} (h : Suppressed env rt kind request) :
    ¬Reported (onRxRequest pj env rt transaction request) := by
  have hquiet : ∀ rt', rt'.recentRequests = rt.recentRequests →
      ¬Reported (handleRequest pj env rt' transaction kind request) := by
    rintro rt' hcache ⟨event, hmem, -⟩
    rw [handleRequest, if_neg h.looked.1, hcache] at hmem
    simp only [h.seen, Bool.not_true, Bool.false_eq_true, if_false] at hmem
    split_ifs at hmem
    · cases hmem
    · obtain ⟨status, issue, hresult, hissue⟩ := sendResponse_spec env.send rt'.auth none 200 false false
      rcases hissue with rfl | ⟨hchallenge, -⟩
      · simp [respondOk, hresult] at hmem
      · cases hchallenge
  unfold onRxRequest
  rw [h.method]
  simp only
  by_cases hneeds : kind.needsSource = true
  · rw [if_pos hneeds, h.source hneeds]
    exact hquiet _ rfl
  · rw [if_neg hneeds, if_neg h.looked.2]
    exact hquiet rt rfl

/-- **Which requests one device can make look like duplicates.** In every run of the dispatcher, for every
request `second` that gets as far as the look-up: if it is suppressed it is not reported, and it is
suppressed as a duplicate of a request that arrived. For every request `first` that is remembered, if
`second` is suppressed as its duplicate then they came over the same transport and association, and if
their fields can be taken apart they have the same Call-ID, CSeq, method and branch. And `second` is
suppressed as a duplicate of `first` only if they have the same source, exactly if their keys are equal
only if their remote addresses and From users are. -/
theorem duplicate_same_channel (pj : Pjsip) (arrivals : List Arrival) (rt : RxRuntime)
    (hrun : Dispatched pj arrivals rt) (env : RequestEnv) (kind : RequestKind) (second : Request)
    (hchecked : Checked env rt kind second) :
    (Suppressed env rt kind second →
      (∃ first ∈ arrivals, SuppressedAs env rt kind first.request second) ∧
      ∀ transaction, ¬Reported (onRxRequest pj env rt transaction second)) ∧
    ∀ first, Remembered env.recentNow rt.recentRequests first → (SuppressedAs env rt kind first second →
        SameChannel first second ∧ (Plain first → Plain second → SameIds first second)) ∧
      ((SuppressedAs env rt kind first second → SameSource first second) ↔
        (requestDedupeKey first = requestDedupeKey second →
          first.rx.origin.sourceName = second.rx.origin.sourceName ∧
            fromUser first = fromUser second)) := by
  refine ⟨fun hsuppressed => ⟨?_, fun transaction => suppressed_not_reported hsuppressed⟩, ?_⟩
  · obtain ⟨item, hitem, -, hkey⟩ := (recentRequestSeen_iff _ _ _ _).mp hsuppressed.seen
    obtain ⟨first, hfirst, hsame⟩ := hrun.arrived item hitem
    exact ⟨first, hfirst, hsuppressed, hsame.trans hkey.symm⟩
  intro first hfirst
  obtain ⟨item, hitem, hunexpired, hkey⟩ := hfirst
  have hchannel : requestDedupeKey first = requestDedupeKey second → SameChannel first second :=
    fun hsame => sameChannel_of_key hkey (hsame.symm.trans hkey)
  refine ⟨fun h => ⟨hchannel h.key, sameIds_of_key hkey (h.key.symm.trans hkey)⟩, ?_, ?_⟩
  · intro hsource hsame
    -- a request with the key of one that is remembered is suppressed
    have hseen := (recentRequestSeen_iff env.recentNow env.recentCalloc second rt.recentRequests).mpr
      ⟨item, hitem, hunexpired, hsame.symm.trans hkey⟩
    have h := hsource ⟨⟨hchecked, hseen⟩, hsame⟩
    exact ⟨h.address, h.user⟩
  · intro hsource h
    exact ⟨hchannel h.key, (hsource h.key).1, (hsource h.key).2⟩

/-- A MESSAGE of a device from an address. -/
def messageFrom (user address : Bytes) : Request :=
  let uri user : Option Uri := some (.sip ⟨user, [], 5060, []⟩)
  let msg : SipMsg :=
    ⟨.other (ascii "MESSAGE"), uri [1], uri user, [], some [3], some 1, none, none⟩
  ⟨⟨⟨.udp, 0, address, 5060⟩, [], msg⟩, uri [1], none, ascii "MESSAGE", some [4]⟩

/-- A runtime with a live source for each of two devices. -/
def twoDevices : RxRuntime :=
  sampleRxRuntime [⟨.udp, [7], ascii "10.0.0.1", 1, 0⟩, ⟨.udp, [8], ascii "10.0.0.2", 1, 0⟩]

/-- The runtime once the MESSAGE of the first device has arrived. -/
def firstMessage : Arrival := ⟨sampleRequestEnv, 0, messageFrom [7] (ascii "10.0.0.1")⟩

def afterMessage : RxRuntime :=
  (onRxRequest samplePjsip firstMessage.env twoDevices firstMessage.transaction
    firstMessage.request).runtime

/-- The first device sends its MESSAGE again. -/
theorem duplicate_same_channel_again :
    SuppressedAs sampleRequestEnv afterMessage .message firstMessage.request
        (messageFrom [7] (ascii "10.0.0.1")) ∧
      SameSource firstMessage.request (messageFrom [7] (ascii "10.0.0.1")) := by
  have hsuppressed : SuppressedAs sampleRequestEnv afterMessage .message firstMessage.request
      (messageFrom [7] (ascii "10.0.0.1")) :=
    ⟨⟨⟨by decide +kernel, by decide, by decide +kernel⟩, by decide +kernel⟩, rfl⟩
  have hremembered : Remembered sampleRequestEnv.recentNow afterMessage.recentRequests
      firstMessage.request :=
    (recentRequestSeen_iff _ sampleRequestEnv.recentCalloc _ _).mp (by decide +kernel)
  exact ⟨hsuppressed, ((duplicate_same_channel samplePjsip [firstMessage] afterMessage
    (.request firstMessage (.fresh twoDevices rfl)) sampleRequestEnv .message _
    hsuppressed.toChecked).2 firstMessage.request hremembered).2.mpr (fun _ => ⟨rfl, rfl⟩) hsuppressed⟩

/-- The second device sends a MESSAGE with the Call-ID, CSeq and branch of the first one from its own
address. It is suppressed as a duplicate of that one, and has another source. -/
theorem duplicate_of_other_device :
    let second := messageFrom [8] (ascii "10.0.0.2")
    SuppressedAs sampleRequestEnv afterMessage .message firstMessage.request second ∧
      ¬SameSource firstMessage.request second := by
  intro second
  refine ⟨⟨⟨⟨by decide +kernel, by decide, by decide +kernel⟩, by decide +kernel⟩, by decide +kernel⟩, ?_⟩
  intro h
  exact absurd h.user (by decide)

end GmvPjsip.Access
