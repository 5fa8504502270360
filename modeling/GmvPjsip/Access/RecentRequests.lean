import GmvPjsip.Access.Duplicates
import GmvPjsip.Lib.Keyed
import Mathlib.Data.List.Induction

/-!
# Duplicates are requests that were seen

Every request that is presented to the cache stays in it for five seconds, as long as there is room.

* `Seen` is what a look-up does to a cache whose counter is right: a hit extends the time of its request
  where it stands, a miss puts it in front and may drop the last one.
* `recentAfter` is the cache behind a run and `lastPresented` when a key was last presented in it.
* `Recent` is the invariant: the counter is right, the cache is bounded, keys are distinct, and every
  request expires five seconds after its key was last presented.
* `duplicates_were_seen`: for every run, that, and nothing is reported a duplicate unless its key was
  presented less than five seconds ago.
-/

namespace GmvPjsip.Access

open GmvPjsip.Auth GmvPjsip.Lib

/-! ## One look-up -/

/-- The requests that have not expired. -/
def RecentRequests.live (cache : RecentRequests) (now : ℕ) : List RecentRequest :=
  cache.requests.filter (now < ·.expiresAtMs)

/-- What a look-up returns and leaves. -/
inductive Seen (now : ℕ) (key : Bytes) (cache : RecentRequests) : Bool → List RecentRequest → Prop
  | hit (newer : List RecentRequest) (request : RecentRequest) (older : List RecentRequest)
      (hlive : cache.live now = newer ++ request :: older) (hkey : request.key = key) :
      Seen now key cache true (newer ++ ⟨key, u64 (now + duplicateRequestTtlMs)⟩ :: older)
  | miss (hnew : key ∉ (cache.live now).map RecentRequest.key) :
      Seen now key cache false
        ((⟨key, u64 (now + duplicateRequestTtlMs)⟩ :: cache.live now).take duplicateRequestMax)

/-- The sweep counts what it leaves. -/
theorem cleanupRecentRequests_eq (now : ℕ) (requests : List RecentRequest) (count : ℕ) :
    cleanupRecentRequests now requests (count + requests.length) =
      ⟨requests.filter (now < ·.expiresAtMs),
        count + (requests.filter (now < ·.expiresAtMs)).length⟩ := by
  induction requests generalizing count with
  | nil => rfl
  | cons request rest ih =>
    unfold cleanupRecentRequests
    by_cases hlive : now < request.expiresAtMs
    · have hrest := ih (count + 1)
      rw [Nat.add_right_comm] at hrest
      rw [if_pos hlive, List.length_cons, ← Nat.add_assoc, hrest]
      simp [hlive, Nat.add_assoc, Nat.add_comm]
    · rw [if_neg hlive, List.length_cons, ← Nat.add_assoc, Nat.add_sub_cancel, ih count]
      simp [hlive]

/-- The trim leaves the first 512 requests and counts them. -/
theorem trimRecentRequests_eq (requests : List RecentRequest) :
    trimRecentRequests requests.length requests =
      ⟨requests.take duplicateRequestMax, (requests.take duplicateRequestMax).length⟩ := by
  generalize hn : requests.length = n
  induction n generalizing requests with
  | zero =>
    obtain rfl := List.length_eq_zero_iff.mp hn
    rfl
  | succ n ih =>
    unfold trimRecentRequests
    by_cases hfull : duplicateRequestMax < n + 1 ∧ requests ≠ []
    · have hlast : requests.dropLast.length = n := by rw [List.length_dropLast, hn, Nat.add_sub_cancel]
      have htake : requests.dropLast.take duplicateRequestMax = requests.take duplicateRequestMax := by
        rw [List.dropLast_eq_take, List.take_take, hn, Nat.add_sub_cancel,
          Nat.min_eq_left (Nat.le_of_lt_succ hfull.1)]
      rw [if_pos hfull, ih _ hlast, htake]
    · have hne : requests ≠ [] := fun hnil => by simp [hnil] at hn
      have hroom : requests.length ≤ duplicateRequestMax := by
        rw [hn]
        exact Nat.not_lt.mp fun hlt => hfull ⟨hlt, hne⟩
      rw [if_neg hfull, List.take_of_length_le hroom, hn]

/-- The loop finds the first request with the key. -/
theorem touchRecentRequest_cases (key : Bytes) (expiresAtMs : ℕ) (requests : List RecentRequest) :
    (touchRecentRequest key expiresAtMs requests = none ∧ key ∉ requests.map RecentRequest.key) ∨
    ∃ newer request older, requests = newer ++ request :: older ∧ request.key = key ∧
      touchRecentRequest key expiresAtMs requests = some (newer ++ ⟨key, expiresAtMs⟩ :: older) := by
  induction requests with
  | nil => exact Or.inl ⟨rfl, List.not_mem_nil⟩
  | cons request rest ih =>
    unfold touchRecentRequest
    by_cases hkey : request.key = key
    · refine Or.inr ⟨[], request, rest, rfl, hkey, ?_⟩
      rw [if_pos hkey, ← hkey, List.nil_append]
    · rw [if_neg hkey]
      rcases ih with ⟨hnone, habsent⟩ | ⟨newer, found, older, rfl, hfound, htouch⟩
      · refine Or.inl ⟨by rw [hnone, Option.map_none], ?_⟩
        rw [List.map_cons, List.mem_cons, not_or]
        exact ⟨fun heq => hkey heq.symm, habsent⟩
      · exact Or.inr ⟨request :: newer, found, older, rfl, hfound, by rw [htouch]; rfl⟩

/-- **What a look-up does.** -/
theorem recentRequestSeen_seen (now : ℕ) {request : Request} {key : Bytes} {cache : RecentRequests}
    (hsized : cache.count = cache.requests.length) (hkey : requestDedupeKey request = some key) :
    ∃ seen requests, recentRequestSeen now true request cache = (seen, ⟨requests, requests.length⟩) ∧
      Seen now key cache seen requests := by
  have hcleaned : cleanupRecentRequests now cache.requests cache.count =
      ⟨cache.live now, (cache.live now).length⟩ := by
    have hcleaned := cleanupRecentRequests_eq now cache.requests 0
    rwa [Nat.zero_add, Nat.zero_add, ← hsized] at hcleaned
  unfold recentRequestSeen
  simp only [hkey, hcleaned]
  rcases touchRecentRequest_cases key (u64 (now + duplicateRequestTtlMs)) (cache.live now) with
    ⟨hnone, hnew⟩ | ⟨newer, found, older, hlive, hfound, htouch⟩
  · refine ⟨false, _, ?_, .miss hnew⟩
    simp only [hnone]
    rw [← trimRecentRequests_eq]
    rfl
  · refine ⟨true, _, ?_, .hit newer found older hlive hfound⟩
    simp only [htouch]
    rw [hlive, List.length_append, List.length_append, List.length_cons, List.length_cons]

/-! ## Runs -/

/-- A request that is presented, and the reading of the clock. -/
structure Presented where
  now : ℕ
  request : Request

def Presented.key (p : Presented) : Option Bytes := requestDedupeKey p.request

/-- The cache behind a run of look-ups whose allocations succeed. -/
def recentAfter (ops : List Presented) : RecentRequests :=
  ops.foldl (fun cache p => (recentRequestSeen p.now true p.request cache).2) ⟨[], 0⟩

/-- When a key was last presented. -/
def lastPresented (key : Bytes) (ops : List Presented) : Option ℕ :=
  (ops.reverse.find? fun p => p.key = some key).map Presented.now

theorem recentAfter_append (ops : List Presented) (p : Presented) :
    recentAfter (ops ++ [p]) = (recentRequestSeen p.now true p.request (recentAfter ops)).2 := by
  rw [recentAfter, List.foldl_append]
  rfl

theorem lastPresented_append (key : Bytes) (ops : List Presented) (p : Presented) :
    lastPresented key (ops ++ [p]) =
      if p.key = some key then some p.now else lastPresented key ops := by
  unfold lastPresented
  rw [List.reverse_append, List.reverse_singleton, List.singleton_append, List.find?_cons]
  by_cases hkey : p.key = some key
  · simp [hkey]
  · simp [hkey]

/-- The cache behind a run. -/
structure Recent (ops : List Presented) : Prop where
  sized : (recentAfter ops).count = (recentAfter ops).requests.length
  bounded : (recentAfter ops).requests.length ≤ duplicateRequestMax
  distinct : ((recentAfter ops).requests.map RecentRequest.key).Nodup
  stamped : ∀ request ∈ (recentAfter ops).requests, ∃ now, lastPresented request.key ops = some now ∧
      request.expiresAtMs = u64 (now + duplicateRequestTtlMs)

section recent

variable {ops : List Presented} {p : Presented}

/-- A request without a key leaves the cache as it is. -/
theorem recentRequestSeen_of_none {request : Request} (hkey : requestDedupeKey request = none)
    (now : ℕ) (cache : RecentRequests) :
    recentRequestSeen now true request cache = (false, cache) := by
  rw [recentRequestSeen, hkey]

theorem Recent.nodup_live (h : Recent ops) (now : ℕ) :
    (((recentAfter ops).live now).map RecentRequest.key).Nodup :=
  h.distinct.sublist (List.filter_sublist.map _)

theorem Recent.length_live (h : Recent ops) (now : ℕ) :
    ((recentAfter ops).live now).length ≤ duplicateRequestMax :=
  Nat.le_trans (List.length_filter_le _ _) h.bounded

/-- A request that stays, with another key, keeps its time. -/
theorem Recent.stamped_of_live (h : Recent ops) (now : ℕ) {key : Bytes} {request : RecentRequest}
    (hp : p.key = some key) (hlive : request ∈ (recentAfter ops).live now) (hne : request.key ≠ key) :
    ∃ last, lastPresented request.key (ops ++ [p]) = some last ∧
      request.expiresAtMs = u64 (last + duplicateRequestTtlMs) := by
  have hother : ¬p.key = some request.key := by
    rw [hp]
    exact fun heq => hne (Option.some.inj heq).symm
  rw [lastPresented_append, if_neg hother]
  exact h.stamped request (List.mem_filter.mp hlive).1

/-- The request that was presented has its time from now. -/
theorem stamped_self {key : Bytes} (hp : p.key = some key) :
    ∃ last, lastPresented key (ops ++ [p]) = some last ∧
      u64 (p.now + duplicateRequestTtlMs) = u64 (last + duplicateRequestTtlMs) :=
  ⟨p.now, by rw [lastPresented_append, if_pos hp], rfl⟩

/-- One look-up keeps it. -/
theorem Recent.step (h : Recent ops) (p : Presented) : Recent (ops ++ [p]) := by
  rcases hkey : p.key with _ | key
  · have hsame : recentAfter (ops ++ [p]) = recentAfter ops := by
      rw [recentAfter_append, recentRequestSeen_of_none hkey]
    refine ⟨hsame ▸ h.sized, hsame ▸ h.bounded, hsame ▸ h.distinct, fun request hrequest => ?_⟩
    rw [lastPresented_append, if_neg (by simp [hkey])]
    exact h.stamped request (hsame ▸ hrequest)
  · obtain ⟨seen, requests, hresult, hseen⟩ := recentRequestSeen_seen p.now h.sized hkey
    have hafter : recentAfter (ops ++ [p]) = ⟨requests, requests.length⟩ := by
      rw [recentAfter_append, hresult]
    have hnodup := h.nodup_live p.now
    have hlength := h.length_live p.now
    cases hseen with
    | hit newer found older hlive hfound =>
      rw [hlive] at hnodup hlength
      have hother := Keyed.ne_of_nodup_split hnodup
      refine ⟨by rw [hafter], ?_, ?_, fun request hrequest => ?_⟩
      · rw [hafter]
        simpa using hlength
      · rw [hafter]
        simpa [hfound] using hnodup
      · rw [hafter] at hrequest
        rcases List.mem_append.mp hrequest with hnewer | htail
        · refine h.stamped_of_live p.now hkey (hlive ▸ List.mem_append_left _ hnewer) ?_
          exact hfound ▸ hother request (List.mem_append_left _ hnewer)
        · rcases List.mem_cons.mp htail with rfl | holder
          · exact stamped_self hkey
          · refine h.stamped_of_live p.now hkey
              (hlive ▸ List.mem_append_right _ (List.mem_cons_of_mem _ holder)) ?_
            exact hfound ▸ hother request (List.mem_append_right _ holder)
    | miss hnew =>
      have hsub : ((⟨key, u64 (p.now + duplicateRequestTtlMs)⟩ ::
          (recentAfter ops).live p.now).take duplicateRequestMax).Sublist
          (⟨key, u64 (p.now + duplicateRequestTtlMs)⟩ :: (recentAfter ops).live p.now) :=
        List.take_sublist _ _
      refine ⟨by rw [hafter], ?_, ?_, fun request hrequest => ?_⟩
      · rw [hafter]
        exact List.length_take_le _ _
      · rw [hafter]
        refine List.Nodup.sublist (hsub.map _) ?_
        rw [List.map_cons, List.nodup_cons]
        exact ⟨hnew, hnodup⟩
      · rw [hafter] at hrequest
        rcases List.mem_cons.mp (hsub.subset hrequest) with rfl | hlive
        · exact stamped_self hkey
        · exact h.stamped_of_live p.now hkey hlive fun heq => hnew (heq ▸ List.mem_map_of_mem hlive)

end recent

/-- **Every run keeps it.** -/
theorem recent_run (ops : List Presented) : Recent ops := by
  induction ops using List.reverseRecOn with
  | nil => exact ⟨rfl, Nat.zero_le _, List.nodup_nil, fun _ h => absurd h List.not_mem_nil⟩
  | append_singleton ops p ih => exact ih.step p

/-- **Nothing is a duplicate that was not seen.** Behind every run of look-ups the counter is the length
of the list, which has at most 512 requests with distinct keys. Whatever is presented next, at whatever
time: it is reported a duplicate only if its key was presented before, the last time less than 5000 ms
ago; and a request whose key does not fit the buffer is not reported and leaves the cache as it is. -/
theorem duplicates_were_seen (ops : List Presented) :
    (recentAfter ops).count = (recentAfter ops).requests.length ∧
    (recentAfter ops).count ≤ 512 ∧
    ((recentAfter ops).requests.map RecentRequest.key).Nodup ∧
    ∀ now request, ((recentRequestSeen now true request (recentAfter ops)).1 = true →
        ∃ key last, requestDedupeKey request = some key ∧ lastPresented key ops = some last ∧
          now < last + 5000) ∧
      (requestDedupeKey request = none →
        recentRequestSeen now true request (recentAfter ops) = (false, recentAfter ops)) := by
  have h := recent_run ops
  refine ⟨h.sized, h.sized ▸ h.bounded, h.distinct, fun now request => ⟨fun hduplicate => ?_, ?_⟩⟩
  · rcases hkey : requestDedupeKey request with _ | key
    · rw [recentRequestSeen_of_none hkey] at hduplicate
      cases hduplicate
    · obtain ⟨seen, requests, hresult, hseen⟩ := recentRequestSeen_seen now h.sized hkey
      rw [hresult] at hduplicate
      cases hseen with
      | miss => cases hduplicate
      | hit newer found older hlive hfound =>
        have hmem : found ∈ (recentAfter ops).live now :=
          hlive ▸ List.mem_append_right _ List.mem_cons_self
        obtain ⟨hstored, hunexpired⟩ := List.mem_filter.mp hmem
        obtain ⟨last, hlast, hexpires⟩ := h.stamped found hstored
        rw [hfound] at hlast
        refine ⟨key, last, rfl, hlast, ?_⟩
        calc now < found.expiresAtMs := of_decide_eq_true hunexpired
          _ = u64 (last + duplicateRequestTtlMs) := hexpires
          _ ≤ last + 5000 := u64_le _
  · intro hkey
    exact recentRequestSeen_of_none hkey now _

end GmvPjsip.Access
