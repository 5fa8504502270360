import GmvPjsip.Access.RecentRequests
import GmvPjsip.Lib.Clock
import Mathlib.Data.Finset.Card
import Mathlib.Data.Finset.Dedup

/-!
# Which requests the cache drops

When the cache is full the last request of the list is dropped. A hit leaves its request where it stands,
so the list is in the order in which its requests were new.

* `reports` are the answers of a run, `sinceNew` what was presented since a key was last reported new and
  `sinceLast` what was presented since it was last presented at all.
* `Queued` is the invariant: what stands in front of a key was presented since the key was new, and a key
  that is missing although it has not expired has had 512 others presented since.
* `evicted_after_others`: in every run with a clock that does not go back, a request that is reported new
  less than five seconds after its key was last presented has had 512 others presented since its key was
  last reported new; if that was the last time it was presented at all, since then.
  `evicted_after_one` has a request that was presented with one other since.
-/

namespace GmvPjsip.Access

open GmvPjsip.Auth GmvPjsip.Lib

/-! ## What was presented since -/

/-- The requests of a run that begins with a cache, each with what the look-up says. -/
def reportsFrom : RecentRequests → List Presented → List (Presented × Bool)
  | _, [] => []
  | cache, p :: rest =>
    let result := recentRequestSeen p.now true p.request cache
    (p, result.1) :: reportsFrom result.2 rest

/-- The requests of a run, each with what the look-up says, the latest first. -/
def reports (ops : List Presented) : List (Presented × Bool) := (reportsFrom ⟨[], 0⟩ ops).reverse

/-- What was presented since a key was last reported new. -/
def sinceNew (key : Bytes) (ops : List Presented) : List Presented :=
  ((reports ops).takeWhile fun r => ¬(r.1.key = some key ∧ r.2 = false)).map Prod.fst

/-- What was presented since a key was last presented. -/
def sinceLast (key : Bytes) (ops : List Presented) : List Presented :=
  ((reports ops).takeWhile fun r => ¬r.1.key = some key).map Prod.fst

/-- What the look-up said when a key was last presented. -/
def lastReport (key : Bytes) (ops : List Presented) : Option Bool :=
  ((reports ops).find? fun r => r.1.key = some key).map Prod.snd

/-- The other keys among some requests. -/
def otherKeys (key : Bytes) (ops : List Presented) : Finset Bytes :=
  ((ops.filterMap Presented.key).toFinset).erase key

/-- The reading of the clock. -/
def Presented.readings (p : Presented) : List ℕ := [p.now]

/-- One more request, one more report. -/
theorem reportsFrom_append (cache : RecentRequests) (ops : List Presented) (p : Presented) :
    reportsFrom cache (ops ++ [p]) = reportsFrom cache ops ++ [(p, (recentRequestSeen p.now true
      p.request (ops.foldl (fun cache p => (recentRequestSeen p.now true p.request cache).2)
        cache)).1)] := by
  induction ops generalizing cache with
  | nil => rfl
  | cons q rest ih =>
    rw [List.cons_append, reportsFrom, reportsFrom]
    simp only [ih, List.foldl_cons, List.cons_append]

/-- The newest report comes first. -/
theorem reports_append (ops : List Presented) (p : Presented) : reports (ops ++ [p]) =
      (p, (recentRequestSeen p.now true p.request (recentAfter ops)).1) :: reports ops := by
  rw [reports, reportsFrom_append, List.reverse_append, List.reverse_singleton, List.singleton_append]
  rfl

variable {key : Bytes} {ops : List Presented} {n : ℕ}

/-- A request that is not the key reported new is one more. -/
theorem sinceNew_append {p : Presented} (h : ¬(p.key = some key ∧
      (recentRequestSeen p.now true p.request (recentAfter ops)).1 = false)) :
    sinceNew key (ops ++ [p]) = p :: sinceNew key ops := by
  rw [sinceNew, reports_append, List.takeWhile_cons_of_pos (by exact decide_eq_true h)]
  rfl

/-- If a key was new when it was last presented, both are the same. -/
theorem sinceNew_eq_sinceLast
    (h : lastReport key ops = some false) : sinceNew key ops = sinceLast key ops := by
  unfold lastReport at h
  unfold sinceNew sinceLast
  generalize reports ops = rs at h ⊢
  induction rs with
  | nil => rfl
  | cons r rest ih =>
    by_cases hkey : r.1.key = some key
    · rw [List.find?_cons_of_pos (by simpa using hkey)] at h
      have hnew : r.2 = false := Option.some.inj h
      rw [List.takeWhile_cons_of_neg (by simp [hkey, hnew]),
        List.takeWhile_cons_of_neg (by simp [hkey])]
    · rw [List.find?_cons_of_neg (by simpa using hkey)] at h
      rw [List.takeWhile_cons_of_pos (by simp [hkey]),
        List.takeWhile_cons_of_pos (by simp [hkey]), List.map_cons, List.map_cons, ih h]

/-- More requests, more keys. -/
theorem otherKeys_mono {ops' : List Presented} (h : ops ⊆ ops') :
    otherKeys key ops ⊆ otherKeys key ops' := by
  intro k hk
  obtain ⟨hne, hmem⟩ := Finset.mem_erase.mp hk
  obtain ⟨p, hp, hkey⟩ := List.mem_filterMap.mp (List.mem_toFinset.mp hmem)
  exact Finset.mem_erase.mpr ⟨hne, List.mem_toFinset.mpr (List.mem_filterMap.mpr ⟨p, h hp, hkey⟩)⟩

/-- Distinct other keys that were all presented are at most as many as were presented. -/
theorem length_le_otherKeys (ops : List Presented) {keys : List Bytes} (hnodup : keys.Nodup)
    (hne : key ∉ keys)
    (hpresented : ∀ k ∈ keys, ∃ p ∈ ops, p.key = some k) :
    keys.length ≤ (otherKeys key ops).card := by
  rw [← List.toFinset_card_of_nodup hnodup]
  refine Finset.card_le_card fun k hk => ?_
  have hk' : k ∈ keys := List.mem_toFinset.mp hk
  obtain ⟨p, hp, hkey⟩ := hpresented k hk'
  refine Finset.mem_erase.mpr ⟨fun heq => hne (heq ▸ hk'), ?_⟩
  exact List.mem_toFinset.mpr (List.mem_filterMap.mpr ⟨p, hp, hkey⟩)

/-! ## The order of the list -/

/-- The keys of the cache behind a run, and of its requests that have not expired. -/
def keysAfter (ops : List Presented) : List Bytes := (recentAfter ops).requests.map RecentRequest.key

def liveKeys (ops : List Presented) (now : ℕ) : List Bytes :=
  ((recentAfter ops).live now).map RecentRequest.key

/-- The key `a` was presented since `b` was last reported new. -/
def Follows (ops : List Presented) (a b : Bytes) : Prop := ∃ p ∈ sinceNew b ops, p.key = some a

/-- The list is in the order in which its keys were new, and a key that is missing although it has not
expired has had 512 others presented since. -/
structure Queued (ops : List Presented) : Prop where
  ordered : (keysAfter ops).Pairwise (Follows ops)
  missing : ∀ key last, lastPresented key ops = some last →
    ∀ now, Clock.Reached Presented.readings ops now → now < last + duplicateRequestTtlMs →
      last + duplicateRequestTtlMs < 2 ^ 64 →
      key ∈ keysAfter ops ∨ duplicateRequestMax ≤ (otherKeys key (sinceNew key ops)).card

section queued

variable {ops : List Presented} {p : Presented} {key : Bytes}

/-- Live keys are in the cache. -/
theorem liveKeys_sublist (ops : List Presented) (now : ℕ) :
    (liveKeys ops now).Sublist (keysAfter ops) :=
  List.filter_sublist.map _

/-- A key that has not expired is among those that have not expired. -/
theorem mem_liveKeys {last now : ℕ} (hkey : key ∈ keysAfter ops)
    (hlast : lastPresented key ops = some last) (hnow : now < last + duplicateRequestTtlMs)
    (hfits : last + duplicateRequestTtlMs < 2 ^ 64) : key ∈ liveKeys ops now := by
  obtain ⟨request, hrequest, rfl⟩ := List.mem_map.mp hkey
  obtain ⟨last', hlast', hexpires⟩ := (recent_run ops).stamped request hrequest
  obtain rfl : last' = last := Option.some.inj (hlast'.symm.trans hlast)
  rw [u64_of_lt hfits] at hexpires
  refine List.mem_map_of_mem (List.mem_filter.mpr ⟨hrequest, ?_⟩)
  rw [hexpires]
  exact decide_eq_true hnow

/-- What a look-up does to the keys: nothing but the sweep for a hit, and one more for a miss. -/
theorem keysAfter_append (ops : List Presented) (hp : p.key = some key) :
    ((recentRequestSeen p.now true p.request (recentAfter ops)).1 = true ∧
      key ∈ liveKeys ops p.now ∧ keysAfter (ops ++ [p]) = liveKeys ops p.now) ∨
    ((recentRequestSeen p.now true p.request (recentAfter ops)).1 = false ∧ key ∉ liveKeys ops p.now ∧
      keysAfter (ops ++ [p]) = (key :: liveKeys ops p.now).take duplicateRequestMax) := by
  obtain ⟨seen, requests, hresult, hseen⟩ :=
    recentRequestSeen_seen p.now (recent_run ops).sized hp
  unfold keysAfter liveKeys
  rw [recentAfter_append, hresult]
  cases hseen with
  | hit newer found older hlive hfound =>
    refine Or.inl ⟨rfl, ?_, ?_⟩
    · rw [hlive, List.map_append, List.map_cons, hfound]
      exact List.mem_append_right _ List.mem_cons_self
    · rw [hlive, List.map_append, List.map_append, List.map_cons, List.map_cons, hfound]
  | miss hnew => exact Or.inr ⟨rfl, hnew, by rw [List.map_take, List.map_cons]⟩

/-- The order of the keys that stay. -/
theorem Queued.ordered_live (h : Queued ops) (hp : p.key = some key)
    (hkept : (recentRequestSeen p.now true p.request (recentAfter ops)).1 = true ∨
      key ∉ liveKeys ops p.now) :
    (liveKeys ops p.now).Pairwise (Follows (ops ++ [p])) := by
  refine (h.ordered.sublist (liveKeys_sublist ops p.now)).imp_of_mem fun {a b} _ hb hfollows => ?_
  obtain ⟨q, hq, hkey⟩ := hfollows
  have hstays : ¬(p.key = some b ∧
      (recentRequestSeen p.now true p.request (recentAfter ops)).1 = false) := by
    rintro ⟨hb', hnew⟩
    obtain rfl : key = b := Option.some.inj (hp.symm.trans hb')
    rcases hkept with hseen | habsent
    · rw [hseen] at hnew
      cases hnew
    · exact habsent hb
  refine ⟨q, ?_, hkey⟩
  rw [sinceNew_append hstays]
  exact List.mem_cons_of_mem _ hq

/-- With a new key in front. -/
theorem Queued.ordered_cons (h : Queued ops) (hp : p.key = some key)
    (habsent : key ∉ liveKeys ops p.now) :
    (key :: liveKeys ops p.now).Pairwise (Follows (ops ++ [p])) := by
  refine List.pairwise_cons.mpr ⟨fun b hb => ⟨p, ?_, hp⟩, h.ordered_live hp (Or.inr habsent)⟩
  have hother : ¬p.key = some b := by
    rw [hp]
    exact fun heq => habsent (Option.some.inj heq ▸ hb)
  rw [sinceNew_append fun hboth => hother hboth.1]
  exact List.mem_cons_self

/-- A key that drops out of the list has had 512 others presented since it was new. -/
theorem Queued.dropped (h : Queued ops) (hp : p.key = some key)
    (habsent : key ∉ liveKeys ops p.now) {old : Bytes} (hold : old ∈ liveKeys ops p.now)
    (hdropped : old ∉ (key :: liveKeys ops p.now).take duplicateRequestMax) :
    duplicateRequestMax ≤ (otherKeys old (sinceNew old (ops ++ [p]))).card := by
  have hordered := h.ordered_cons hp habsent
  have hmem : old ∈ key :: liveKeys ops p.now := List.mem_cons_of_mem _ hold
  rw [← List.take_append_drop duplicateRequestMax (key :: liveKeys ops p.now)] at hordered hmem
  have hback := (List.mem_append.mp hmem).resolve_left hdropped
  have hfull : ((key :: liveKeys ops p.now).take duplicateRequestMax).length =
      duplicateRequestMax := by
    refine List.length_take_of_le (Nat.le_of_lt ?_)
    have hpos := List.length_pos_of_mem hback
    rw [List.length_drop] at hpos
    exact Nat.lt_of_sub_pos hpos
  have hnodup : ((key :: liveKeys ops p.now).take duplicateRequestMax).Nodup := by
    refine List.Nodup.sublist (List.take_sublist _ _) (List.nodup_cons.mpr ⟨habsent, ?_⟩)
    exact (recent_run ops).nodup_live p.now
  have hbound := length_le_otherKeys (sinceNew old (ops ++ [p])) hnodup hdropped
    fun k hk => (List.pairwise_append.mp hordered).2.2 k hk old hback
  rwa [hfull] at hbound

/-- One look-up keeps the invariant. -/
theorem Queued.step (h : Queued ops) (p : Presented) : Queued (ops ++ [p]) := by
  -- of a key that is not presented, what was presented since grows
  have hgrows : ∀ other, ¬p.key = some other → (otherKeys other (sinceNew other ops)).card ≤
        (otherKeys other (sinceNew other (ops ++ [p]))).card := by
    intro other hother
    rw [sinceNew_append fun hboth => hother hboth.1]
    exact Finset.card_le_card (otherKeys_mono (List.subset_cons_self _ _))
  rcases hkey : p.key with _ | key
  · have hsame : keysAfter (ops ++ [p]) = keysAfter ops := by
      rw [keysAfter, recentAfter_append, recentRequestSeen_of_none hkey]
      rfl
    have hother : ∀ other, ¬p.key = some other := fun other => by simp [hkey]
    constructor
    · rw [hsame]
      refine h.ordered.imp fun {a b} ⟨q, hq, hqkey⟩ => ⟨q, ?_, hqkey⟩
      rw [sinceNew_append fun hboth => hother b hboth.1]
      exact List.mem_cons_of_mem _ hq
    · intro other last hlast now hreached hnow hfits
      rw [lastPresented_append, if_neg (hother other)] at hlast
      rw [hsame]
      exact (h.missing other last hlast now hreached.of_append hnow hfits).imp_right
        fun hbound => Nat.le_trans hbound (hgrows other (hother other))
  · constructor
    · rcases keysAfter_append ops hkey with ⟨hseen, -, hkeys⟩ | ⟨-, habsent, hkeys⟩
      · rw [hkeys]
        exact h.ordered_live hkey (Or.inl hseen)
      · rw [hkeys]
        exact (h.ordered_cons hkey habsent).sublist (List.take_sublist _ _)
    · intro other last hlast now hreached hnow hfits
      by_cases hsame : key = other
      · subst hsame
        refine Or.inl ?_
        rcases keysAfter_append ops hkey with ⟨-, hmem, hkeys⟩ | ⟨-, -, hkeys⟩
        · rw [hkeys]
          exact hmem
        · rw [hkeys]
          exact List.mem_cons_self
      · have hother : ¬p.key = some other := by
          rw [hkey]
          exact fun heq => hsame (Option.some.inj heq)
        rw [lastPresented_append, if_neg hother] at hlast
        rcases h.missing other last hlast now hreached.of_append hnow hfits with hmem | hbound
        · have hle : p.now ≤ now :=
            hreached.of_mem (List.mem_append_right _ List.mem_cons_self) List.mem_cons_self
          have hlive := mem_liveKeys hmem hlast (Nat.lt_of_le_of_lt hle hnow) hfits
          rcases keysAfter_append ops hkey with ⟨-, -, hkeys⟩ | ⟨-, habsent, hkeys⟩
          · exact Or.inl (hkeys ▸ hlive)
          · rw [hkeys]
            exact or_iff_not_imp_left.mpr fun hdropped => h.dropped hkey habsent hlive hdropped
        · exact Or.inr (Nat.le_trans hbound (hgrows other hother))

end queued

/-- **Every run keeps it.** -/
theorem queued_run (ops : List Presented) : Queued ops := by
  induction ops using List.reverseRecOn with
  | nil => exact ⟨List.Pairwise.nil, fun key last hlast => by cases hlast⟩
  | append_singleton ops p ih => exact ih.step p

/-- **A request is forgotten early only after 512 others.** In every run with a clock that does not go
back: if a request is reported new less than 5000 ms after its key was last presented, at least 512
distinct other keys were presented since the key was last reported new; and since it was last presented,
if it was reported new then. -/
theorem evicted_after_others (ops : List Presented) (hclock : Clock.Runs Presented.readings ops) :
    ∀ before p after key last, ops = before ++ p :: after → p.key = some key →
      lastPresented key before = some last → p.now < last + 5000 → last + 5000 < 2 ^ 64 →
      (recentRequestSeen p.now true p.request (recentAfter before)).1 = false →
      512 ≤ (otherKeys key (sinceNew key before)).card ∧
      (lastReport key before = some false → 512 ≤ (otherKeys key (sinceLast key before)).card) := by
  rintro before p after key last rfl hkey hlast hnow hfits hnew
  have hreached : Clock.Reached Presented.readings before p.now := hclock.reached List.mem_cons_self
  have hbound : 512 ≤ (otherKeys key (sinceNew key before)).card := by
    rcases (queued_run before).missing key last hlast p.now hreached hnow hfits with hmem | hbound
    · -- a key that has not expired would have been a hit
      have hlive := mem_liveKeys hmem hlast hnow hfits
      rcases keysAfter_append before hkey with ⟨hseen, -, -⟩ | ⟨-, habsent, -⟩
      · rw [hseen] at hnew
        cases hnew
      · exact absurd hlive habsent
    · exact hbound
  refine ⟨hbound, fun hreport => ?_⟩
  rwa [← sinceNew_eq_sinceLast hreport]

/-! ## A full cache

Requests that differ in the length of their Call-ID are presented while the clock stands at 0. -/

section full

/-- The request number `n`. -/
def numbered (n : ℕ) : Presented :=
  let msg : SipMsg :=
    ⟨.options, none, none, [], some (List.replicate (n + 1) 1), some 1, none, none⟩
  ⟨0, ⟨⟨⟨.udp, 1, [], 5060⟩, [], msg⟩, none, none, [1], some [1]⟩⟩

/-- Its key. -/
def numberedKey (n : ℕ) : Bytes :=
  ascii "1|1|" ++ List.replicate (n + 1) 1 ++ (ascii "|1|" ++ [1] ++ ascii "|" ++ [1])

/-- A request that has all its parts is remembered by its text, if that fits. -/
theorem requestDedupeKey_of_parts {request : Request} {callId branch : Bytes} {cseq : ℤ}
    (hcallId : request.rx.msg.callId = some callId) (hcseq : request.rx.msg.cseq = some cseq)
    (hbranch : request.viaBranch = some branch)
    (hparts : ¬(callId.length = 0 ∨ request.cseqMethod.length = 0 ∨ branch.length = 0))
    (hkey : decimal (transportNumber request.rx.origin.transport) ++ ascii "|" ++
      decimal request.rx.origin.associationId ++ ascii "|" ++ upToNul callId ++ ascii "|" ++
      signedDecimal cseq ++ ascii "|" ++ upToNul request.cseqMethod ++ ascii "|" ++
      upToNul branch = key) (hfits : key.length < duplicateKeyCapacity) :
    requestDedupeKey request = some key := by
  rw [requestDedupeKey, hcallId, hcseq, hbranch]
  simp only [Option.bind_eq_bind, Option.bind_some]
  rw [if_neg hparts, hkey, if_pos hfits]

/-- The key of a numbered request. -/
theorem numbered_key (hn : n < 700) : (numbered n).key = some (numberedKey n) := by
  have hfits : (numberedKey n).length < duplicateKeyCapacity := by
    have hfront : (ascii "1|1|").length = 4 := rfl
    have hback : (ascii "|1|" ++ [1] ++ ascii "|" ++ [1]).length = 6 := rfl
    rw [numberedKey, List.length_append, List.length_append, List.length_replicate, hfront, hback,
      duplicateKeyCapacity]
    omega
  have htext : decimal (transportNumber .udp) ++ ascii "|" ++ decimal 1 ++ ascii "|" ++
      upToNul (List.replicate (n + 1) 1) ++ ascii "|" ++ signedDecimal 1 ++ ascii "|" ++
      upToNul [1] ++ ascii "|" ++ upToNul [1] = numberedKey n := by
    have hcallId : upToNul (List.replicate (n + 1) 1) = List.replicate (n + 1) 1 := by
      rw [upToNul, List.takeWhile_replicate]
      rfl
    rw [hcallId]
    simp only [numberedKey, List.append_assoc]
    rfl
  have hparts : ¬((List.replicate (n + 1) (1 : UInt8)).length = 0 ∨
      (numbered n).request.cseqMethod.length = 0 ∨ ([1] : Bytes).length = 0) := by
    rw [List.length_replicate]
    exact fun h => by rcases h with h | h | h <;> cases h
  exact requestDedupeKey_of_parts rfl rfl rfl hparts htext hfits

/-- Different numbers have different keys. -/
theorem numberedKey_injective : Function.Injective numberedKey := by
  intro n m h
  have hlength := congrArg List.length h
  simp only [numberedKey, List.length_append, List.length_replicate] at hlength
  omega

variable {ops : List Presented} (hstill : ∀ p ∈ ops, p.now = 0)

include hstill

/-- A clock that stands still shows `0`. -/
theorem lastPresented_of_still {last : ℕ} (h : lastPresented key ops = some last) : last = 0 := by
  obtain ⟨p, hp, rfl⟩ := Option.map_eq_some_iff.mp h
  exact hstill p (List.mem_reverse.mp (List.mem_of_find?_eq_some hp))

/-- Nothing expires then. -/
theorem liveKeys_of_still : liveKeys ops 0 = keysAfter ops := by
  unfold liveKeys keysAfter RecentRequests.live
  rw [List.filter_eq_self.mpr]
  intro request hrequest
  obtain ⟨last, hlast, hexpires⟩ := (recent_run ops).stamped request hrequest
  rw [hexpires, lastPresented_of_still hstill hlast]
  decide

/-- A request was last presented at `0`. -/
theorem lastPresented_of_mem {p : Presented} (hp : p ∈ ops) (hkey : p.key = some key) :
    lastPresented key ops = some 0 := by
  rcases hlast : lastPresented key ops with _ | last
  · rw [lastPresented, Option.map_eq_none_iff, List.find?_eq_none] at hlast
    exact absurd (decide_eq_true hkey) (hlast p (List.mem_reverse.mpr hp))
  · rw [lastPresented_of_still hstill hlast]

/-- It does not go back either. -/
theorem runs_of_still : Clock.Runs Presented.readings ops := by
  refine List.pairwise_of_forall_mem_list fun a ha b hb => ?_
  obtain ⟨p, hp, hap⟩ := List.mem_flatMap.mp ha
  rw [List.mem_singleton.mp hap, hstill p hp]
  exact Nat.zero_le b

/-- One more request at `0`. -/
theorem still_append (n : ℕ) : ∀ p ∈ ops ++ [numbered n], p.now = 0 := by
  intro p hp
  rcases List.mem_append.mp hp with hp | hp
  · exact hstill p hp
  · rw [List.mem_singleton.mp hp]
    rfl

/-- A duplicate stays where it is. -/
theorem keysAfter_repeated (hn : n < 700) (hmem : numberedKey n ∈ keysAfter ops) :
    keysAfter (ops ++ [numbered n]) = keysAfter ops := by
  have hlive : liveKeys ops (numbered n).now = keysAfter ops := liveKeys_of_still hstill
  rcases keysAfter_append ops (numbered_key hn) with ⟨-, -, hkeys⟩ | ⟨-, habsent, -⟩
  · rw [hkeys, hlive]
  · rw [hlive] at habsent
    exact absurd hmem habsent

/-- A request whose key is not there is new, and goes to the front. -/
theorem keysAfter_new (hn : n < 700) (hnot : numberedKey n ∉ keysAfter ops) :
    (recentRequestSeen 0 true (numbered n).request (recentAfter ops)).1 = false ∧
      keysAfter (ops ++ [numbered n]) = (numberedKey n :: keysAfter ops).take duplicateRequestMax := by
  have hlive : liveKeys ops (numbered n).now = keysAfter ops := liveKeys_of_still hstill
  rcases keysAfter_append ops (numbered_key hn) with ⟨-, hmem, -⟩ | ⟨hnew, -, hkeys⟩
  · rw [hlive] at hmem
    exact absurd hmem hnot
  · rw [hlive] at hkeys
    exact ⟨hnew, hkeys⟩

end full

/-- The requests 0, 1, …, `n - 1`, one after the other. -/
def filling (n : ℕ) : List Presented := (List.range n).map numbered

/-- The filling takes no time. -/
theorem filling_still (n : ℕ) : ∀ p ∈ filling n, p.now = 0 := by
  intro p hp
  obtain ⟨i, -, rfl⟩ := List.mem_map.mp hp
  rfl

/-- It goes on by one request. -/
theorem filling_succ (n : ℕ) : filling (n + 1) = filling n ++ [numbered n] := by
  simp [filling, List.range_succ]

/-- They stand in the cache in reverse. -/
theorem keysAfter_filling (hn : n ≤ 700) : keysAfter (filling n) =
      ((List.range n).reverse.map numberedKey).take duplicateRequestMax := by
  induction n with
  | zero => rfl
  | succ n ih =>
    have hbefore := ih (Nat.le_of_succ_le hn)
    have hnot : numberedKey n ∉ keysAfter (filling n) := by
      rw [hbefore]
      intro hmem
      obtain ⟨m, hm, heq⟩ := List.mem_map.mp (List.mem_of_mem_take hmem)
      have hlt := List.mem_range.mp (List.mem_reverse.mp hm)
      exact absurd (numberedKey_injective heq) (Nat.ne_of_lt hlt)
    rw [filling_succ, (keysAfter_new (filling_still n) hn hnot).2, hbefore, List.range_succ,
      List.reverse_append, List.reverse_singleton, List.singleton_append, List.map_cons]
    simp [duplicateRequestMax, List.take_take]

/-- The numbers from `n` down to 1, and 0 behind them. -/
theorem reverse_range_succ (n : ℕ) : (List.range (n + 1)).reverse.map numberedKey =
      (List.range n).reverse.map (fun i => numberedKey (i + 1)) ++ [numberedKey 0] := by
  rw [List.range_succ_eq_map, List.reverse_cons, List.map_append, ← List.map_reverse, List.map_map]
  rfl

/-- The first key is none of the others. -/
theorem notMem_numbers (n : ℕ) :
    numberedKey 0 ∉ (List.range n).reverse.map fun i => numberedKey (i + 1) := by
  intro hmem
  obtain ⟨i, -, heq⟩ := List.mem_map.mp hmem
  exact absurd (numberedKey_injective heq) (Nat.succ_ne_zero i)

/-- Request 0 was new when it was presented. -/
theorem lastReport_filling (hn : n < 700) :
    lastReport (numberedKey 0) (filling (n + 1)) = some false := by
  induction n with
  | zero =>
    have hnew := (keysAfter_new (n := 0) (filling_still 0) (by decide) List.not_mem_nil).1
    rw [filling_succ, lastReport, reports_append,
      List.find?_cons_of_pos (by simp [numbered_key (n := 0) (by decide)])]
    exact congrArg some hnew
  | succ n ih =>
    have hother : ¬(numbered (n + 1)).key = some (numberedKey 0) := by
      rw [numbered_key hn]
      exact fun heq => Nat.succ_ne_zero n (numberedKey_injective (Option.some.inj heq))
    rw [filling_succ, lastReport, reports_append, List.find?_cons_of_neg (by simpa using hother)]
    exact ih (by omega)

/-- Request 0 and 512 others, and then request 0 again. It was new when it was last presented. -/
theorem evicted_after_others_filling :
    512 ≤ (otherKeys (numberedKey 0) (sinceNew (numberedKey 0) (filling 513))).card ∧
      512 ≤ (otherKeys (numberedKey 0) (sinceLast (numberedKey 0) (filling 513))).card := by
  have hkey : (numbered 0).key = some (numberedKey 0) := numbered_key (by decide)
  have hlast : lastPresented (numberedKey 0) (filling 513) = some 0 :=
    lastPresented_of_mem (filling_still 513) (List.mem_map_of_mem (List.mem_range.mpr (by decide))) hkey
  have hnot : numberedKey 0 ∉ keysAfter (filling 513) := by
    rw [keysAfter_filling (by decide), reverse_range_succ,
      List.take_left' (by simp [duplicateRequestMax])]
    exact notMem_numbers 512
  have hnew := (keysAfter_new (filling_still 513) (by decide) hnot).1
  obtain ⟨hsinceNew, hsinceLast⟩ := evicted_after_others (filling 513 ++ [numbered 0])
    (runs_of_still (still_append (filling_still 513) 0)) (filling 513)
    (numbered 0) [] (numberedKey 0) 0 rfl hkey hlast (by decide) (by decide) hnew
  exact ⟨hsinceNew, hsinceLast (lastReport_filling (by decide))⟩

/-- Requests 0 to 511 fill the cache, with request 0 at its end; a duplicate leaves it there. -/
theorem keysAfter_filled : keysAfter (filling 512 ++ [numbered 0]) =
      (List.range 511).reverse.map (fun i => numberedKey (i + 1)) ++ [numberedKey 0] := by
  have hfull : keysAfter (filling 512) =
      (List.range 511).reverse.map (fun i => numberedKey (i + 1)) ++ [numberedKey 0] := by
    rw [keysAfter_filling (by decide), reverse_range_succ]
    exact List.take_of_length_le (by simp [duplicateRequestMax])
  have hmem : numberedKey 0 ∈ keysAfter (filling 512) := by
    rw [hfull]
    exact List.mem_append_right _ List.mem_cons_self
  rw [keysAfter_repeated (filling_still 512) (by decide) hmem, hfull]

/-- One more request drops request 0. -/
theorem notMem_keysAfter_filled :
    numberedKey 0 ∉ keysAfter (filling 512 ++ [numbered 0] ++ [numbered 512]) := by
  have hnot : numberedKey 512 ∉ keysAfter (filling 512 ++ [numbered 0]) := by
    rw [keysAfter_filled, ← reverse_range_succ]
    intro hmem
    obtain ⟨i, hi, heq⟩ := List.mem_map.mp hmem
    have hlt := List.mem_range.mp (List.mem_reverse.mp hi)
    exact absurd (numberedKey_injective heq) (Nat.ne_of_lt hlt)
  rw [(keysAfter_new (still_append (filling_still 512) 0) (by decide) hnot).2, keysAfter_filled,
    ← List.cons_append, List.take_left' (by simp [duplicateRequestMax])]
  intro hmem
  rcases List.mem_cons.mp hmem with heq | hold
  · cases numberedKey_injective heq
  · exact notMem_numbers 511 hold

/-- Requests 0 to 511 fill the cache, request 0 is a duplicate, and request 512 drops it: request 0 is
reported new in the same millisecond, with one other request since. -/
theorem evicted_after_one :
    let before := filling 512 ++ [numbered 0] ++ [numbered 512]
    lastPresented (numberedKey 0) before = some 0 ∧
      (recentRequestSeen 0 true (numbered 0).request (recentAfter before)).1 = false ∧
      (otherKeys (numberedKey 0) (sinceLast (numberedKey 0) before)).card = 1 := by
  intro before
  have hkey : (numbered 0).key = some (numberedKey 0) := numbered_key (by decide)
  have hkey' : (numbered 512).key = some (numberedKey 512) := numbered_key (by decide)
  have hne : numberedKey 512 ≠ numberedKey 0 := fun heq => by
    cases numberedKey_injective heq
  have hstill : ∀ p ∈ before, p.now = 0 := still_append (still_append (filling_still 512) 0) 512
  refine ⟨lastPresented_of_mem hstill (p := numbered 0) (by simp [before]) hkey,
    (keysAfter_new hstill (by decide) notMem_keysAfter_filled).1, ?_⟩
  have hother : ¬(numbered 512).key = some (numberedKey 0) := by
    rw [hkey']
    exact fun heq => hne (Option.some.inj heq)
  have hsince : sinceLast (numberedKey 0) before = [numbered 512] := by
    rw [sinceLast, reports_append, reports_append,
      List.takeWhile_cons_of_pos (by exact decide_eq_true hother),
      List.takeWhile_cons_of_neg (by simp [hkey])]
    rfl
  rw [hsince, otherKeys]
  simp [hkey', hne.symm]

end GmvPjsip.Access
