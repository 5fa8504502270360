import GmvPjsip.Lib.Keyed
import GmvPjsip.Subscriptions.Machine
import Mathlib.Logic.Relation

/-!
# What changes in the list of subscriptions

Records have distinct numbers, so that a callback or a command changes one record and no other.

* `SubscriptionRuntime.Sound`: no number is given out twice, not even after its record was removed.
* `Change s₀ op` is one change in the course of `op`, which began with the runtime `s₀`. A record that
  takes an operation and the request that is then sent for it are one change: PJSIP gives no signal
  between them. `step_changes`: whatever happens is a sequence of changes.
* `runSubscriptions_invariant`: what every change keeps holds in every run.
-/

namespace GmvPjsip.Subscriptions

open GmvPjsip.Auth hiding RxData
open GmvPjsip.Commands
open GmvPjsip.Calls (CallEvent RxData Transaction eunsuptransport firstFailure setSubscriptionBody
  transactionEvent)
open GmvPjsip.Lib
open Relation

/-! ## One record among others -/

/-- No two records share a number. -/
structure SubscriptionRuntime.Sound (s : SubscriptionRuntime) : Prop where
  once : ((s.removed ++ s.subscriptions).map SubscriptionCall.serial).Nodup
  fresh : ∀ n ∈ (s.removed ++ s.subscriptions).map SubscriptionCall.serial, n < s.serials

/-- The record between `pre` and `post` reacts. -/
def SubscriptionRuntime.splice (s : SubscriptionRuntime) (pre : List SubscriptionCall) (q : Reaction)
    (post : List SubscriptionCall) (request : Option ℕ) : SubscriptionRuntime :=
  { s with
    subscriptions := pre ++ (if q.dropped then [] else [q.call]) ++ post
    events := s.events ++ q.events
    reports := s.reports ++ request.toList.flatMap fun n => q.events.map fun e => (n, e)
    removed := s.removed ++ if q.dropped then [q.call] else [] }

variable {r' r : SubscriptionCall} {q : Reaction}

section split

variable {s : SubscriptionRuntime} {pre post : List SubscriptionCall} {r : SubscriptionCall}

/-- Records of the list have different serial numbers. -/
theorem SubscriptionRuntime.Sound.serials (hs : s.Sound) :
    (s.subscriptions.map SubscriptionCall.serial).Nodup := by
  have honce := hs.once
  rw [List.map_append] at honce
  exact honce.of_append_right

/-- A serial number is of one record. -/
theorem eq_of_serial_eq (hs : s.Sound) {r : SubscriptionCall} (hr : r ∈ s.subscriptions)
    (hr' : r' ∈ s.subscriptions) (h : r.serial = r'.serial) : r = r' :=
  List.inj_on_of_nodup_map hs.serials hr hr' h

/-- A write is a reaction of the one record. -/
theorem write_split (hs : s.Sound) (hcalls : s.subscriptions = pre ++ r :: post)
    (f : SubscriptionCall → SubscriptionCall) :
    s.write r.serial f = s.splice pre ⟨f r, [], false⟩ post none := by
  have hmap := Keyed.map_at (hcalls ▸ hs.serials) f
  rw [SubscriptionRuntime.write, SubscriptionRuntime.splice, hcalls, hmap]
  simp

/-- So is a removal. -/
theorem remove_split (hs : s.Sound) (hcalls : s.subscriptions = pre ++ r :: post) :
    s.removeSubscription r.serial = s.splice pre ⟨r, [], true⟩ post none := by
  have hkept := Keyed.filter_ne_at (hcalls ▸ hs.serials)
  have hgone := Keyed.filter_eq_at (hcalls ▸ hs.serials)
  rw [SubscriptionRuntime.removeSubscription, SubscriptionRuntime.splice, hcalls, hkept, hgone]
  simp

/-- A reaction keeps the serial numbers. -/
theorem splice_serials (hcalls : s.subscriptions = pre ++ r :: post)
    (hserial : q.call.serial = r.serial) (request : Option ℕ) :
    (((s.splice pre q post request).removed ++ (s.splice pre q post request).subscriptions).map
      SubscriptionCall.serial).Perm
      ((s.removed ++ s.subscriptions).map SubscriptionCall.serial) := by
  rw [hcalls]
  exact Keyed.perm_splice hserial q.dropped

/-- A reaction keeps the runtime sound. -/
theorem sound_splice (hs : s.Sound) (hcalls : s.subscriptions = pre ++ r :: post)
    (hserial : q.call.serial = r.serial) (request : Option ℕ) :
    (s.splice pre q post request).Sound := by
  have hperm := splice_serials hcalls hserial request
  exact ⟨hperm.nodup_iff.mpr hs.once, fun n hn => hs.fresh n (hperm.mem_iff.mp hn)⟩

/-- What stands in the list after a reaction. -/
theorem mem_splice (hcalls : s.subscriptions = pre ++ r :: post) {request : Option ℕ}
    (h : r' ∈ (s.splice pre q post request).subscriptions) :
    r' = q.call ∧ q.dropped = false ∨ r' ∈ s.subscriptions := by
  rw [hcalls]
  cases hdropped : q.dropped <;> simp [SubscriptionRuntime.splice, hdropped] at h ⊢ <;> tauto

/-- A reaction of a subscription is a reaction of its record, if there is one. -/
theorem react_split (hs : s.Sound) {f : SubscriptionCall → Reaction}
    (hf : ∀ r : SubscriptionCall, (f r).call.serial = r.serial) (subscription : ℕ)
    (request : Option ℕ) :
    ((∀ r ∈ s.subscriptions, r.serial = subscription → r.subscription = none) ∧
        s.react subscription request f = s) ∨
      ∃ pre r post, s.subscriptions = pre ++ r :: post ∧ r.serial = subscription ∧
        r.subscription ≠ none ∧ s.react subscription request f = s.splice pre (f r) post request := by
  unfold SubscriptionRuntime.react
  cases hcall : s.subscriptionFromEvsub subscription with
  | none =>
    refine Or.inl ⟨fun r hr hserial => ?_, rfl⟩
    simpa [hserial] using List.find?_eq_none.mp hcall r hr
  | some r =>
    have hmatch := List.find?_some hcall
    rw [Bool.and_eq_true, decide_eq_true_eq] at hmatch
    obtain ⟨rfl, hsome⟩ := hmatch
    obtain ⟨pre, post, hcalls⟩ := List.append_of_mem (List.mem_of_find?_eq_some hcall)
    refine Or.inr ⟨pre, r, post, hcalls, rfl, Option.isSome_iff_ne_none.mp hsome, ?_⟩
    simp only
    rw [write_split hs hcalls]
    cases hdropped : (f r).dropped with
    | false => simp [SubscriptionRuntime.splice, SubscriptionRuntime.emit, hdropped]
    | true =>
      have hwritten : (s.splice pre ⟨(f r).call, (f r).events, false⟩ post request).Sound :=
        sound_splice hs hcalls (q := ⟨(f r).call, (f r).events, false⟩) (hf r) request
      have hstands : (s.splice pre ⟨(f r).call, (f r).events, false⟩ post request).subscriptions =
          pre ++ (f r).call :: post := by simp [SubscriptionRuntime.splice]
      have hgone := remove_split hwritten hstands
      rw [hf r] at hgone
      rw [if_pos rfl]
      refine Eq.trans ?_ (hgone.trans ?_)
      · simp [SubscriptionRuntime.splice, SubscriptionRuntime.emit]
      · simp [SubscriptionRuntime.splice, hdropped]

/-- The record with a number is dropped. -/
theorem drop_split (hs : s.Sound) (hcalls : s.subscriptions = pre ++ r :: post) :
    s.dropSubscription r.serial = s.splice pre ⟨{ r with subscription := none }, [], true⟩ post none := by
  have hwritten : (s.splice pre ⟨{ r with subscription := none }, [], false⟩ post none).Sound :=
    sound_splice hs hcalls rfl none
  have hstands : (s.splice pre ⟨{ r with subscription := none }, [], false⟩ post none).subscriptions =
      pre ++ { r with subscription := none } :: post := by simp [SubscriptionRuntime.splice]
  have hgone := remove_split hwritten hstands
  rw [SubscriptionRuntime.dropSubscription, write_split hs hcalls]
  refine hgone.trans ?_
  simp [SubscriptionRuntime.splice]

/-- A number nobody has is not written to. -/
theorem write_absent {serial : ℕ} (h : ∀ r ∈ s.subscriptions, r.serial ≠ serial)
    (f : SubscriptionCall → SubscriptionCall) : s.write serial f = s := by
  have hsame : (s.subscriptions.map fun r => if r.serial = serial then f r else r) = s.subscriptions :=
    (List.map_congr_left fun r hr => if_neg (h r hr)).trans (List.map_id' s.subscriptions)
  rw [SubscriptionRuntime.write, hsame]

/-- A number nobody has is not dropped. -/
theorem drop_absent {serial : ℕ} (h : ∀ r ∈ s.subscriptions, r.serial ≠ serial) :
    s.dropSubscription serial = s := by
  have hkept : (s.subscriptions.filter fun r => r.serial ≠ serial) = s.subscriptions :=
    List.filter_eq_self.mpr fun r hr => decide_eq_true (h r hr)
  have hgone : (s.subscriptions.filter fun r => r.serial = serial) = [] :=
    List.filter_eq_nil_iff.mpr fun r hr => by simpa using h r hr
  rw [SubscriptionRuntime.dropSubscription, write_absent h, SubscriptionRuntime.removeSubscription,
    hkept, hgone, List.append_nil]

/-- Nobody has a number, or one record of the list. -/
theorem absent_or_split (s : SubscriptionRuntime) (serial : ℕ) :
    (∀ r ∈ s.subscriptions, r.serial ≠ serial) ∨
      ∃ pre r post, s.subscriptions = pre ++ r :: post ∧ r.serial = serial := by
  by_cases h : ∀ r ∈ s.subscriptions, r.serial ≠ serial
  · exact Or.inl h
  · simp only [not_forall, not_not] at h
    obtain ⟨r, hr, hserial⟩ := h
    obtain ⟨pre, post, hcalls⟩ := List.append_of_mem hr
    exact Or.inr ⟨pre, r, post, hcalls, hserial⟩

end split

/-! ## Changes -/

/-- The signals PJSIP may give in the course of what happens. -/
def Op.signals : Op → List Signal
  | .signal σ => [σ]
  | .subscribe _ env => env.start.during
  | .clientRefresh _ env => env.during
  | .close _ env => env.during

/-- The record a signal is about. -/
def Signal.subscription : Signal → ℕ
  | .enters n _ => n
  | .stateChanged n => n
  | .tsx n .. => n
  | .notify n _ => n

/-- The request a signal is about, if it is about one. -/
def Signal.request : Signal → Option ℕ
  | .tsx _ request .. => some request
  | _ => none

/-- What a signal does to its record. -/
def Signal.reaction : Signal → SubscriptionCall → Reaction
  | .enters _ state, r => ⟨{ r with subscription := some state, told := false }, [], false⟩
  | .stateChanged _, r => onState r
  | .tsx _ _ tx rdata, r => onTsxState tx rdata r
  | .notify _ rdata, r => onRxNotify rdata r

/-- What can happen to a record in the course of `op`, and the request it is about. -/
inductive Touch (op : Op) (r : SubscriptionCall) : Option ℕ → Reaction → Prop
  | enters {state : EvsubState} (hσ : .enters r.serial state ∈ op.signals)
      (hlive : r.subscription ≠ none) :
      Touch op r none ⟨{ r with subscription := some state, told := false }, [], false⟩
  | stateChanged (hσ : .stateChanged r.serial ∈ op.signals) (hlive : r.subscription ≠ none) :
      Touch op r none (onState r)
  | tsx {request : ℕ} {tx : Transaction} {rdata : Option RxData} {q : Reaction}
      (hσ : .tsx r.serial request tx rdata ∈ op.signals) (hlive : r.subscription ≠ none)
      (hreact : TsxReaction tx rdata r q) : Touch op r (some request) q
  | notify {rdata : Option RxData} (hσ : .notify r.serial rdata ∈ op.signals)
      (hlive : r.subscription ≠ none) : Touch op r none (onRxNotify rdata r)
  | replaced {expires : ℕ} {contentType body : Bytes} (hidle : r.operationId = 0) :
      Touch op r none
        ⟨{ r with expires := expires, contentType := contentType, body := body }, [], false⟩
  | refreshFailed {command : SubscribeCommand} {env : SubscribeEnv} (hop : op = .subscribe command env)
      (hrefresh : command.callId ≠ []) (hfailed : env.start.status ≠ .success) :
      Touch op r none ⟨{ r with operationId := 0 }, [], false⟩
  | abandoned : Touch op r none ⟨{ r with subscription := none }, [], true⟩

/-- The records of an association are gone. -/
def SubscriptionRuntime.swept (s : SubscriptionRuntime) (transport : SipTransport)
    (associationId : ℕ) : SubscriptionRuntime :=
  { s with
    subscriptions := s.subscriptions.filter fun r =>
      ¬(r.transport = transport ∧ r.associationId = associationId)
    removed := s.removed ++ (s.subscriptions.filter fun r =>
      r.transport = transport ∧ r.associationId = associationId).map fun r =>
        { r with subscription := none } }

/-- One change in the course of `op`, which began with the runtime `s₀`. -/
inductive Change (s₀ : SubscriptionRuntime) (op : Op) (s : SubscriptionRuntime) :
    SubscriptionRuntime → Prop
  | same : Change s₀ op s s
  | touched {pre post : List SubscriptionCall} {r : SubscriptionCall} {request : Option ℕ}
      {q : Reaction} (hcalls : s.subscriptions = pre ++ r :: post) (htouch : Touch op r request q) :
      Change s₀ op s (s.splice pre q post request)
  | refreshed {command : SubscribeCommand} {env : SubscribeEnv} {pre post : List SubscriptionCall}
      {r r' : SubscriptionCall} (hop : op = .subscribe command env) (hs : s = s₀)
      (hcalls : s.subscriptions = pre ++ r :: post) (hidle : r.operationId = 0)
      (hid : r'.operationId = command.operationId) (hserial : r'.serial = r.serial)
      (hstate : r'.subscription = r.subscription) (htold : r'.told = r.told) :
      Change s₀ op s ((s.splice pre ⟨r', [], false⟩ post none).start r')
  | subscribed {command : SubscribeCommand} {env : SubscribeEnv} {r : SubscriptionCall}
      (hop : op = .subscribe command env) (hs : s = s₀) (hid : r.operationId = command.operationId)
      (hserial : r.serial = s.serials) (hstate : r.subscription = some .null) :
      Change s₀ op s ((s.push r).start r)
  | refused {r : SubscriptionCall} (hserial : r.serial = s.serials) :
      Change s₀ op s { s with serials := s.serials + 1, removed := s.removed ++ [r] }
  | automatic {r : SubscriptionCall} (hmem : r ∈ s.subscriptions) (hidle : r.operationId = 0) :
      Change s₀ op s (s.start r)
  | fault {transport : SipTransport} {status : PjStatus} :
      Change s₀ op s (s.emit [⟨.runtimeFault, transport, 0, status, none, 0⟩])
  | swept {transport : SipTransport} {associationId : ℕ} :
      Change s₀ op s (s.swept transport associationId)

section changes

variable {s₀ s s' : SubscriptionRuntime} {op : Op}

/-- A callback keeps the serial number. -/
theorem onState_serial (r : SubscriptionCall) : (onState r).call.serial = r.serial := by
  unfold onState
  split_ifs <;> rfl

/-- So does that of a transaction. -/
theorem onTsxState_serial (tx : Transaction) (rdata : Option RxData) (r : SubscriptionCall) :
    (onTsxState tx rdata r).call.serial = r.serial := by
  have hreact := onTsxState_spec tx rdata r
  generalize onTsxState tx rdata r = q at hreact
  cases hreact <;> rfl

/-- A NOTIFY changes no record. -/
theorem onRxNotify_call (rdata : Option RxData) (r : SubscriptionCall) :
    (onRxNotify rdata r).call = r ∧ (onRxNotify rdata r).dropped = false := by
  cases rdata <;> exact ⟨rfl, rfl⟩

/-- A touch keeps the serial number. -/
theorem Touch.serial {request : Option ℕ}
    (htouch : Touch op r request q) : q.call.serial = r.serial := by
  cases htouch with
  | stateChanged => exact onState_serial r
  | tsx _ _ hreact => cases hreact <;> rfl
  | notify => rw [(onRxNotify_call _ r).1]
  | enters | replaced | refreshFailed | abandoned => rfl

/-- A callback leaves a record its number. -/
theorem reaction_serial (σ : Signal) (r : SubscriptionCall) :
    (σ.reaction r).call.serial = r.serial := by
  cases σ with
  | enters => rfl
  | stateChanged => exact onState_serial r
  | tsx _ _ tx rdata => exact onTsxState_serial tx rdata r
  | notify _ rdata => rw [Signal.reaction, (onRxNotify_call rdata r).1]

/-- A signal is a reaction of its record, if it has one with a subscription. -/
theorem signal_reacts (hs : s.Sound) (σ : Signal) :
    ((∀ r ∈ s.subscriptions, r.serial = σ.subscription → r.subscription = none) ∧ s.signal σ = s) ∨
      ∃ pre r post, s.subscriptions = pre ++ r :: post ∧ r.serial = σ.subscription ∧
        r.subscription ≠ none ∧ s.signal σ = s.splice pre (σ.reaction r) post σ.request := by
  have heq : s.signal σ = s.react σ.subscription σ.request σ.reaction := by cases σ <;> rfl
  rw [heq]
  exact react_split hs (reaction_serial σ) σ.subscription σ.request

/-- What a signal does to its record can happen to it. -/
theorem reaction_touch {σ : Signal} (hσ : σ ∈ op.signals) (hown : r.serial = σ.subscription)
    (hlive : r.subscription ≠ none) :
    Touch op r σ.request (σ.reaction r) := by
  cases σ with
  | enters => exact .enters (hown ▸ hσ) hlive
  | stateChanged => exact .stateChanged (hown ▸ hσ) hlive
  | tsx _ _ tx rdata => exact .tsx (hown ▸ hσ) hlive (onTsxState_spec tx rdata r)
  | notify => exact .notify (hown ▸ hσ) hlive

/-- A signal is a change. -/
theorem signal_change (hs : s.Sound) {σ : Signal} (hσ : σ ∈ op.signals) :
    Change s₀ op s (s.signal σ) := by
  rcases signal_reacts hs σ with ⟨-, hsame⟩ | ⟨pre, r, post, hcalls, hown, hlive, heq⟩
  · rw [hsame]
    exact .same
  · rw [heq]
    exact .touched hcalls (reaction_touch hσ hown hlive)

/-- A close keeps the runtime sound. -/
theorem sound_swept (hs : s.Sound) (transport : SipTransport) (associationId : ℕ) :
    (s.swept transport associationId).Sound := by
  have hperm : (((s.swept transport associationId).removed ++
      (s.swept transport associationId).subscriptions).map SubscriptionCall.serial).Perm
      ((s.removed ++ s.subscriptions).map SubscriptionCall.serial) :=
    Keyed.perm_filter _ fun _ => rfl
  exact ⟨hperm.nodup_iff.mpr hs.once, fun n hn => hs.fresh n (hperm.mem_iff.mp hn)⟩

/-- A new record takes the next number, whether it gets into the list or not. -/
theorem sound_push (hs : s.Sound) (hserial : r.serial = s.serials)
    {removed subscriptions : List SubscriptionCall}
    (hnew : (removed ++ subscriptions).Perm (r :: (s.removed ++ s.subscriptions))) :
    ({ s with
      removed := removed
      subscriptions := subscriptions
      serials := s.serials + 1 } : SubscriptionRuntime).Sound := by
  have hperm := hnew.map SubscriptionCall.serial
  constructor
  · show ((removed ++ subscriptions).map SubscriptionCall.serial).Nodup
    rw [hperm.nodup_iff, List.map_cons, List.nodup_cons, hserial]
    exact ⟨fun hmem => Nat.lt_irrefl _ (hs.fresh _ hmem), hs.once⟩
  · intro n hn
    rcases List.mem_cons.mp (hperm.mem_iff.mp hn) with rfl | hold
    · show r.serial < s.serials + 1
      omega
    · exact Nat.lt_succ_of_lt (hs.fresh n hold)

/-- Every change keeps the runtime sound. -/
theorem Change.sound (hs : s.Sound) (hchange : Change s₀ op s s') : s'.Sound := by
  cases hchange with
  | same => exact hs
  | touched hcalls htouch => exact sound_splice hs hcalls htouch.serial _
  | @refreshed command env pre post r r' hop hs₀ hcalls hidle hid hserial =>
    have hwritten := sound_splice hs hcalls (q := ⟨r', [], false⟩) hserial none
    exact ⟨hwritten.once, hwritten.fresh⟩
  | subscribed hop hs₀ hid hserial =>
    have hpushed := sound_push hs hserial List.perm_middle
    exact ⟨hpushed.once, hpushed.fresh⟩
  | @refused r hserial =>
    refine sound_push hs hserial ?_
    rw [List.append_assoc]
    exact List.perm_middle
  | automatic | fault => exact ⟨hs.once, hs.fresh⟩
  | swept => exact sound_swept hs _ _

/-- A signal keeps the runtime sound. -/
theorem sound_signal (hs : s.Sound) (σ : Signal) : (s.signal σ).Sound := by
  have hchange : Change s (.signal σ) s (s.signal σ) :=
    signal_change hs (List.mem_singleton.mpr rfl)
  exact hchange.sound hs

/-- Any number of changes of a sound runtime. -/
abbrev Changes (s₀ : SubscriptionRuntime) (op : Op) (s s' : SubscriptionRuntime) : Prop :=
  ReflTransGen (Change s₀ op) s s'

/-- So do changes. -/
theorem Changes.sound (hs : s.Sound) (hchanges : Changes s₀ op s s') : s'.Sound := by
  induction hchanges with
  | refl => exact hs
  | tail _ hchange ih => exact hchange.sound ih

/-- What PJSIP signals is a sequence of changes. -/
theorem signals_changes (hs : s.Sound) {σs : List Signal} (hσs : ∀ σ ∈ σs, σ ∈ op.signals) :
    Changes s₀ op s (s.signals σs) := by
  induction σs generalizing s with
  | nil => exact .refl
  | cons σ rest ih =>
    have hfirst : Change s₀ op s (s.signal σ) := signal_change hs (hσs σ List.mem_cons_self)
    exact .head hfirst (ih (hfirst.sound hs) fun τ hτ => hσs τ (List.mem_cons_of_mem σ hτ))

/-- A record is written to, if it is in the list. -/
theorem write_change (hs : s.Sound) {serial : ℕ} {f : SubscriptionCall → SubscriptionCall}
    (htouch : ∀ r : SubscriptionCall, Touch op r none ⟨f r, [], false⟩) :
    Change s₀ op s (s.write serial f) := by
  rcases absent_or_split s serial with habsent | ⟨pre, r, post, hcalls, rfl⟩
  · rw [write_absent habsent]
    exact .same
  · rw [write_split hs hcalls]
    exact .touched hcalls (htouch r)

/-- A record is dropped, if it is in the list. -/
theorem drop_change (hs : s.Sound) (serial : ℕ) : Change s₀ op s (s.dropSubscription serial) := by
  rcases absent_or_split s serial with habsent | ⟨pre, r, post, hcalls, rfl⟩
  · rw [drop_absent habsent]
    exact .same
  · rw [drop_split hs hcalls]
    exact .touched hcalls .abandoned

/-- Dropping records of the list one after the other. -/
theorem foldl_drop (rs : List SubscriptionCall) (s : SubscriptionRuntime) (hs : s.Sound)
    (hrs : rs ⊆ s.subscriptions) (hnodup : rs.Nodup) :
    rs.foldl (fun s r => s.dropSubscription r.serial) s = { s with
        subscriptions := s.subscriptions.filter fun r => r ∉ rs
        removed := s.removed ++ rs.map fun r => { r with subscription := none } } := by
  induction rs generalizing s with
  | nil => simp
  | cons r rest ih =>
    obtain ⟨pre, post, hcalls⟩ := List.append_of_mem (hrs List.mem_cons_self)
    have hrest : rest ⊆ pre ++ post := Keyed.subset_at (hcalls ▸ hrs) hnodup
    have hgone := Keyed.filter_notMem_at (hcalls ▸ hs.serials) rest
    rw [List.foldl_cons, drop_split hs hcalls, ih _ (sound_splice hs hcalls rfl none)
      (by simpa [SubscriptionRuntime.splice] using hrest) (List.nodup_cons.mp hnodup).2, hcalls]
    simp only [SubscriptionRuntime.splice, if_true, List.append_nil, hgone, List.append_assoc,
      List.map_cons, List.singleton_append, Option.toList_none, List.flatMap_nil]

/-- A close takes out what belongs to the association. -/
theorem closeAssociationCalls_eq (hs : s.Sound) (transport : SipTransport) (associationId : ℕ) :
    s.closeAssociationCalls transport associationId = s.swept transport associationId := by
  have hnodup : s.subscriptions.Nodup := List.Nodup.of_map _ hs.serials
  rw [SubscriptionRuntime.closeAssociationCalls,
    foldl_drop _ s hs List.filter_sublist.subset (hnodup.filter _), Keyed.filter_notMem_filter]
  rfl

end changes

/-! ## What happens is a sequence of changes -/

section step

variable {s : SubscriptionRuntime} {command : SubscribeCommand} {env : SubscribeEnv}

/-- A refresh takes a record without an operation and gives it the one of the command. -/
theorem prepareRefresh_ok (h : prepareRefresh s command env = .ok r') :
    ∃ r ∈ s.subscriptions, r.operationId = 0 ∧ r' = { r with
        body := command.body
        contentType := command.contentType
        expires := command.expires
        operationId := command.operationId } := by
  unfold prepareRefresh at h
  cases hfind : s.findSubscription command.callId with
  | none => simp [hfind] at h
  | some call =>
    rw [hfind] at h
    have hmem : call ∈ s.subscriptions := by
      unfold SubscriptionRuntime.findSubscription at hfind
      split_ifs at hfind
      exact List.mem_of_find?_eq_some hfind
    simp only [replaceSubscriptionBody] at h
    split_ifs at h with hnone hbusy hmalloc
    · cases h
    · obtain rfl := Except.ok.inj h
      exact ⟨call, hmem, not_not.mp (not_or.mp hbusy).1, rfl⟩

/-- A new subscription takes the next number and the operation of the command. -/
theorem prepareSubscribe_ok (h : prepareSubscribe s command env = .ok r) :
    r.serial = s.serials ∧ r.operationId = command.operationId ∧ r.subscription = some .null := by
  unfold prepareSubscribe at h
  simp only at h
  split_ifs at h
  split at h
  · unfold replaceSubscriptionBody at h
    split_ifs at h
    obtain rfl := Except.ok.inj h
    exact ⟨rfl, rfl, rfl⟩
  · cases h

/-- So is sending a SUBSCRIBE, -/
theorem subscribe_changes (hs : s.Sound) (command : SubscribeCommand) (env : SubscribeEnv) :
    Changes s (.subscribe command env) s (sendSubscribeOnOwner s command env).2 := by
  unfold sendSubscribeOnOwner
  by_cases hbad : command.operationId = 0 ∨ command.event = [] ∨ env.ready = false
  · rw [if_pos hbad]
  rw [if_neg hbad]
  by_cases hrefresh : command.callId ≠ []
  · rw [if_pos hrefresh]
    cases hprepare : prepareRefresh s command env with
    | error status => exact .refl
    | ok r' =>
      obtain ⟨r, hr, hidle, hr'⟩ := prepareRefresh_ok hprepare
      have hserial : r'.serial = r.serial := by rw [hr']
      obtain ⟨pre, post, hcalls⟩ := List.append_of_mem hr
      have hwrite : s.write r'.serial (fun _ => r') = s.splice pre ⟨r', [], false⟩ post none := by
        rw [hserial, write_split hs hcalls]
      have hwritten : (s.splice pre ⟨r', [], false⟩ post none).Sound := sound_splice hs hcalls hserial none
      simp only [startSubscriptionRequest, hwrite]
      by_cases hmade : env.start.prepare r' = .success
      · have hbegins : Change s (.subscribe command env) s
            ((s.splice pre ⟨r', [], false⟩ post none).start r') :=
          .refreshed rfl rfl hcalls hidle (by rw [hr']) hserial (by rw [hr']) (by rw [hr'])
        have hstarted := hbegins.sound hs
        have hsignals : Changes s (.subscribe command env) s _ :=
          .head hbegins (signals_changes hstarted fun _ hσ => hσ)
        simp only [if_pos hmade]
        by_cases hfailed : env.start.status ≠ .success
        · simp only [if_pos hfailed]
          exact hsignals.tail (write_change (hsignals.sound hs) fun r =>
            .refreshFailed rfl hrefresh hfailed)
        · simp only [if_neg hfailed]
          exact hsignals
      · -- no request: the record has another body, and no operation as before
        have hfailed : env.start.prepare r' ≠ .success := hmade
        simp only [if_neg hmade, if_pos hfailed]
        have hstands : (s.splice pre ⟨r', [], false⟩ post none).subscriptions = pre ++ r' :: post := by
          simp [SubscriptionRuntime.splice]
        have hnet : (s.splice pre ⟨r', [], false⟩ post none).write r'.serial
            (fun r => { r with operationId := 0 }) =
            s.splice pre ⟨{ r with
              expires := command.expires
              contentType := command.contentType
              body := command.body }, [], false⟩ post none := by
          rw [write_split hwritten hstands, hr']
          simp [SubscriptionRuntime.splice, hidle]
        rw [hnet]
        exact .single (.touched hcalls (.replaced hidle))
  · rw [if_neg hrefresh]
    cases hprepare : prepareSubscribe s command env with
    | error status => exact .refl
    | ok r =>
      obtain ⟨hserial, hid, hstate⟩ := prepareSubscribe_ok hprepare
      simp only [startSubscriptionRequest]
      by_cases hmade : env.start.prepare r = .success
      · have hbegins : Change s (.subscribe command env) s ((s.push r).start r) :=
          .subscribed rfl rfl hid hserial hstate
        have hsignals : Changes s (.subscribe command env) s _ :=
          .head hbegins (signals_changes (hbegins.sound hs) fun _ hσ => hσ)
        simp only [if_pos hmade]
        by_cases hfailed : env.start.status ≠ .success
        · simp only [if_pos hfailed]
          exact hsignals.tail (drop_change (hsignals.sound hs) r.serial)
        · simp only [if_neg hfailed]
          exact hsignals
      · have hfailed : env.start.prepare r ≠ .success := hmade
        simp only [if_neg hmade, if_pos hfailed]
        have hpushed : (s.push r).Sound := sound_push hs hserial List.perm_middle
        have hnet : (s.push r).dropSubscription r.serial = { s with
              serials := s.serials + 1
              removed := s.removed ++ [{ r with subscription := none }] } := by
          rw [drop_split hpushed (show (s.push r).subscriptions = [] ++ r :: s.subscriptions from rfl)]
          simp [SubscriptionRuntime.splice, SubscriptionRuntime.push]
        rw [hnet]
        exact .single (.refused hserial)

/-- and refreshing one. -/
theorem clientRefresh_changes (hs : s.Sound) (subscription : ℕ) (env : StartEnv) :
    Changes s (.clientRefresh subscription env) s (onClientRefresh s subscription env) := by
  unfold onClientRefresh
  cases hcall : s.subscriptionFromEvsub subscription with
  | none => exact .refl
  | some call =>
    by_cases hbusy : call.operationId ≠ 0
    · simp only [if_pos hbusy]
      exact .refl
    have hstart : Change s (.clientRefresh subscription env) s (s.start call) :=
      .automatic (List.mem_of_find?_eq_some hcall) (not_not.mp hbusy)
    have hsent : Changes s (.clientRefresh subscription env) s
        (startSubscriptionRequest s call env).2 := by
      unfold startSubscriptionRequest
      split_ifs
      · exact .head hstart (signals_changes (hstart.sound hs) fun _ hσ => hσ)
      · exact .refl
    simp only [if_neg hbusy]
    by_cases hfailed : (startSubscriptionRequest s call env).1 ≠ .success
    · rw [if_pos hfailed]
      exact hsent.tail .fault
    · rw [if_neg hfailed]
      exact hsent

/-- **Whatever happens is a sequence of changes.** -/
theorem step_changes (hs : s.Sound) (op : Op) : Changes s op s (s.step op) := by
  cases op with
  | signal => exact .single (signal_change hs (List.mem_singleton.mpr rfl))
  | subscribe command env => exact subscribe_changes hs command env
  | clientRefresh subscription env => exact clientRefresh_changes hs subscription env
  | close command env =>
    show Changes s _ s (processCloseCommand s command env)
    unfold processCloseCommand
    split_ifs
    · have hsignals : Changes s (.close command env) s (s.signals env.during) :=
        signals_changes hs fun _ hσ => hσ
      rw [closeAssociationCalls_eq (hsignals.sound hs)]
      exact hsignals.tail .swept
    · exact .refl

end step

/-! ## Runs -/

section runs

/-- Everything that happens in a run meets a condition on it and on the runtime it meets. -/
def Throughout (A : SubscriptionRuntime → Op → Prop) (ops : List Op) : Prop :=
  ∀ pre op post, ops = pre ++ op :: post → A (runSubscriptions pre) op

/-- A run with one more operation. -/
theorem runSubscriptions_append (ops : List Op) (op : Op) :
    runSubscriptions (ops ++ [op]) = (runSubscriptions ops).step op := by
  rw [runSubscriptions, List.foldl_append]
  rfl

/-- What holds throughout a run holds at its last operation. -/
theorem throughout_append {A : SubscriptionRuntime → Op → Prop} {ops : List Op} {op : Op}
    (h : Throughout A (ops ++ [op])) : Throughout A ops ∧ A (runSubscriptions ops) op :=
  ⟨fun pre o post hops => h pre o (post ++ [op]) (by rw [hops, List.append_assoc, List.cons_append]),
    h ops op [] rfl⟩

/-- **Every run is sound.** -/
theorem runSubscriptions_sound (ops : List Op) : (runSubscriptions ops).Sound := by
  induction ops using List.reverseRecOn with
  | nil => exact ⟨List.nodup_nil, nofun⟩
  | append_singleton ops op ih =>
    rw [runSubscriptions_append]
    exact (step_changes ih op).sound ih

/-- What every change in the course of an operation keeps is kept by the operation. -/
theorem changes_invariant {I : SubscriptionRuntime → Prop} {s₀ s s' : SubscriptionRuntime} {op : Op}
    (hs : s.Sound) (hI : I s)
    (hchange : ∀ s s', s.Sound → I s → Change s₀ op s s' → I s')
    (hchanges : Changes s₀ op s s') : I s' := by
  have hboth : s'.Sound ∧ I s' := by
    induction hchanges with
    | refl => exact ⟨hs, hI⟩
    | tail _ hc ih => exact ⟨hc.sound ih.1, hchange _ _ ih.1 ih.2 hc⟩
  exact hboth.2

/-- **What every change keeps holds in every run.** -/
theorem runSubscriptions_invariant {A : SubscriptionRuntime → Op → Prop}
    {I : SubscriptionRuntime → Prop} {ops : List Op} (hops : Throughout A ops)
    (hinit : I SubscriptionRuntime.init)
    (hchange : ∀ (s₀ : SubscriptionRuntime) (op : Op) (s s' : SubscriptionRuntime), A s₀ op →
      I s₀ → s.Sound → I s → Change s₀ op s s' → I s') : I (runSubscriptions ops) := by
  induction ops using List.reverseRecOn with
  | nil => exact hinit
  | append_singleton ops op ih =>
    obtain ⟨hbefore, hop⟩ := throughout_append hops
    have hs := runSubscriptions_sound ops
    rw [runSubscriptions_append]
    exact changes_invariant hs (ih hbefore)
      (fun s s' => hchange (runSubscriptions ops) op s s' hop (ih hbefore)) (step_changes hs op)

end runs

end GmvPjsip.Subscriptions
