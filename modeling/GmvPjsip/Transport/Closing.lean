import GmvPjsip.Transport.Completions

/-!
# Closing a transport

`gmv_close_custom_transport` completes the pending sends of a transport and then marks it as shut
down. While it walks the list the transport still accepts sends, and what a callback sends is put in
front of the list: the loop gets to it only while its cursor stands at the head.

* `Behind`: the entries the cursor finds once it has passed an entry of another transport.
* `close_leaves_none_iff`: no entry of the transport is left exactly if no callback of such an entry
  gets a send on the transport accepted.
* `pending_send_outlives_close`: one that does.
-/

namespace GmvPjsip.Transport

/-! ## What is left to happen of an entry -/

/-- An entry without its numbers: the transport, and what its callback sends. -/
structure Waiting where
  transport : ℕ
  resends : List Send

/-- What an entry waits for. -/
def PendingSend.waiting (p : PendingSend) : Waiting :=
  ⟨p.transport, if p.hasCallback then p.further else []⟩

/-- What the entry of a send waits for. -/
def Send.waiting (x : Send) : Waiting :=
  ⟨x.transport, if x.hasCallback then x.further else []⟩

/-- What completing an entry puts in front of the list, the last send first. -/
def pushed (accepts : Send → Bool) (w : Waiting) : List Waiting :=
  ((w.resends.filter accepts).map Send.waiting).reverse

/-- The callback of an entry gets a send on the transport accepted. -/
def Resends (accepts : Send → Bool) (transport : ℕ) (w : Waiting) : Prop :=
  ∃ x ∈ w.resends, accepts x = true ∧ x.transport = transport

/-- The entries the cursor finds behind an entry of another transport. While the cursor is at the
head, completing an entry puts what its callback sends in front of the cursor. -/
inductive Behind (accepts : Send → Bool) (transport : ℕ) : List Waiting → Waiting → Prop
  | passed {w v : Waiting} {rest : List Waiting} (hother : w.transport ≠ transport)
      (hmem : v ∈ rest) : Behind accepts transport (w :: rest) v
  | head {w v : Waiting} {rest : List Waiting} (hown : w.transport = transport)
      (hbehind : Behind accepts transport (pushed accepts w ++ rest) v) :
      Behind accepts transport (w :: rest) v

/-! ## One callback -/

/-- A send is refused or puts its entry in front. -/
theorem customTransportSend_waiting (s : Sends) (x : Send) :
    (customTransportSend s x).accepts = s.accepts ∧
      ∃ new, (customTransportSend s x).pendingSends = new ++ s.pendingSends ∧
        new.map PendingSend.waiting = if s.accepts x then [x.waiting] else [] := by
  rcases customTransportSend_cases s x with ⟨hyes, heq⟩ | ⟨hno, ⟨status, -, heq⟩ | heq⟩
  · exact ⟨by rw [heq]; rfl, [_], by rw [heq]; rfl, by rw [hyes]; rfl⟩
  all_goals exact ⟨by rw [heq]; rfl, [], by rw [heq]; rfl, by rw [hno]; rfl⟩

/-- The sends of a callback. -/
theorem foldl_send_waiting (further : List Send) (s : Sends) :
    (further.foldl customTransportSend s).accepts = s.accepts ∧
      ∃ new, (further.foldl customTransportSend s).pendingSends = new ++ s.pendingSends ∧
        new.map PendingSend.waiting = ((further.filter s.accepts).map Send.waiting).reverse := by
  induction further generalizing s with
  | nil => exact ⟨rfl, [], rfl, rfl⟩
  | cons x rest ih =>
    obtain ⟨haccepts, new, hnew, hwaiting⟩ := customTransportSend_waiting s x
    obtain ⟨haccepts', new', hnew', hwaiting'⟩ := ih (customTransportSend s x)
    refine ⟨haccepts'.trans haccepts, new' ++ new, ?_, ?_⟩
    · rw [List.foldl_cons, hnew', hnew, List.append_assoc]
    · rw [List.map_append, hwaiting', hwaiting, haccepts]
      by_cases hx : s.accepts x = true
      · rw [List.filter_cons_of_pos hx, List.map_cons, List.reverse_cons, if_pos hx]
      · rw [List.filter_cons_of_neg hx, if_neg hx, List.append_nil]

/-- Completing an entry puts in front of what is left what its callback sends. -/
theorem Sends.complete_waiting (s : Sends) (p : PendingSend) (rest : List PendingSend) (sent : Sent) :
    (s.complete p rest sent).accepts = s.accepts ∧
      ∃ new, (s.complete p rest sent).pendingSends = new ++ rest ∧
        new.map PendingSend.waiting = pushed s.accepts p.waiting := by
  unfold Sends.complete pushed PendingSend.waiting
  by_cases hcallback : p.hasCallback = true
  · simp only [if_pos hcallback]
    exact foldl_send_waiting p.further (s.unlink p rest sent)
  · simp only [if_neg hcallback]
    exact ⟨rfl, [], rfl, rfl⟩

/-- No entry is of the transport. -/
def NoneOf (transport : ℕ) (pending : List PendingSend) : Prop :=
  ∀ p ∈ pending, p.transport ≠ transport

theorem noneOf_append {transport : ℕ} {first second : List PendingSend} :
    NoneOf transport (first ++ second) ↔ NoneOf transport first ∧ NoneOf transport second :=
  List.forall_mem_append

/-- A callback puts an entry of the transport in front exactly if it gets a send on it accepted. -/
theorem noneOf_pushed {accepts : Send → Bool} {transport : ℕ} {new : List PendingSend} {w : Waiting}
    (hnew : new.map PendingSend.waiting = pushed accepts w) :
    NoneOf transport new ↔ ¬ Resends accepts transport w := by
  have hmem : NoneOf transport new ↔ ∀ v ∈ new.map PendingSend.waiting, v.transport ≠ transport := by
    rw [List.forall_mem_map]
    exact Iff.rfl
  rw [hmem, hnew, pushed]
  simp only [List.mem_reverse, List.forall_mem_map, List.mem_filter, Resends, not_exists, not_and]
  constructor
  · intro h x hx hyes
    exact h x ⟨hx, hyes⟩
  · rintro h x ⟨hx, hyes⟩
    exact h x hx hyes

/-! ## The loop -/

/-- Once the cursor has passed an entry, the entries behind it stay where they are, and what their
callbacks send is never looked at. -/
theorem failLoop_passed (transport : ℕ) (sent : Sent) (fuel : ℕ) :
    ∀ (kept rest : List PendingSend) (s s' : Sends), kept ≠ [] → s.pendingSends = kept ++ rest →
      failLoop transport sent fuel kept rest s = some s' →
      (NoneOf transport s'.pendingSends ↔ NoneOf transport kept ∧
        ∀ v ∈ rest.map PendingSend.waiting, v.transport = transport →
          ¬ Resends s.accepts transport v) := by
  induction fuel with
  | zero =>
    intro kept rest s s' _ hpending hrun
    cases rest with
    | nil =>
      obtain rfl := Option.some.inj hrun
      simp [hpending]
    | cons p rest => cases hrun
  | succ fuel ih =>
    intro kept rest s s' hkept hpending hrun
    cases rest with
    | nil =>
      obtain rfl := Option.some.inj hrun
      simp [hpending]
    | cons p rest =>
      rw [failLoop] at hrun
      rw [List.map_cons, List.forall_mem_cons]
      by_cases hother : p.transport ≠ transport
      · rw [if_pos hother] at hrun
        rw [ih (kept ++ [p]) rest s s' (by simp) (by rw [hpending, List.append_cons]) hrun,
          noneOf_append]
        have hp : NoneOf transport [p] := List.forall_mem_singleton.mpr hother
        have hv : p.waiting.transport = transport → ¬ Resends s.accepts transport p.waiting :=
          fun hown => absurd hown hother
        tauto
      · rw [if_neg hother, if_neg (by simpa using hkept)] at hrun
        obtain ⟨haccepts, new, hnew, hwaiting⟩ := s.complete_waiting p (kept ++ rest) sent
        generalize s.complete p (kept ++ rest) sent = s₁ at haccepts hnew hrun
        have htake : s₁.pendingSends.take (s₁.pendingSends.length - rest.length) = new ++ kept := by
          rw [hnew, ← List.append_assoc]
          refine List.take_left' ?_
          simp only [List.length_append]
          omega
        simp only [htake] at hrun
        rw [ih (new ++ kept) rest s₁ s' (by simp [hkept]) (by rw [hnew, List.append_assoc]) hrun,
          noneOf_append, noneOf_pushed hwaiting, haccepts]
        have hown : p.waiting.transport = transport := not_not.mp hother
        tauto

/-- The loop from the head of the list. -/
theorem failLoop_head (transport : ℕ) (sent : Sent) (fuel : ℕ) :
    ∀ (rest : List PendingSend) (s s' : Sends), s.pendingSends = rest →
      failLoop transport sent fuel [] rest s = some s' →
      (NoneOf transport s'.pendingSends ↔
        ∀ v, Behind s.accepts transport (rest.map PendingSend.waiting) v →
          v.transport = transport → ¬ Resends s.accepts transport v) := by
  induction fuel with
  | zero =>
    intro rest s s' hpending hrun
    cases rest with
    | nil =>
      obtain rfl := Option.some.inj hrun
      exact iff_of_true (by rw [hpending]; exact nofun) nofun
    | cons p rest => cases hrun
  | succ fuel ih =>
    intro rest s s' hpending hrun
    cases rest with
    | nil =>
      obtain rfl := Option.some.inj hrun
      exact iff_of_true (by rw [hpending]; exact nofun) nofun
    | cons p rest =>
      rw [failLoop] at hrun
      by_cases hother : p.transport ≠ transport
      · rw [if_pos hother] at hrun
        rw [failLoop_passed transport sent fuel [p] rest s s' (by simp) hpending hrun]
        constructor
        · rintro ⟨-, hrest⟩ v hv
          cases hv with
          | passed _ hmem => exact hrest v hmem
          | head hown => exact absurd hown hother
        · intro h
          exact ⟨List.forall_mem_singleton.mpr hother,
            fun v hv => h v (.passed hother hv)⟩
      · simp only [if_neg hother, List.nil_append, List.isEmpty_nil, if_true] at hrun
        obtain ⟨haccepts, new, hnew, hwaiting⟩ := s.complete_waiting p rest sent
        generalize s.complete p rest sent = s₁ at haccepts hnew hrun
        rw [ih s₁.pendingSends s₁ s' rfl hrun, haccepts, hnew, List.map_append, hwaiting]
        constructor
        · intro h v hv
          cases hv with
          | passed hne => exact absurd hne hother
          | head _ hbehind => exact h v hbehind
        · intro h v hv
          exact h v (.head (not_not.mp hother) hv)

/-- **Exactly which closes leave no pending send behind**: those in the course of which no callback of
an entry of the transport that stands behind an entry of another transport gets a send on the
transport accepted. -/
theorem close_leaves_none_iff (s : Sends) (transport : ℕ) (status : PjStatus) :
    ∃ s', closeCustomTransport s transport status = some s' ∧
      ((∀ p ∈ s'.pendingSends, p.transport ≠ transport) ↔
        ∀ v, Behind s.accepts transport (s.pendingSends.map PendingSend.waiting) v →
          v.transport = transport → ¬ Resends s.accepts transport v) := by
  obtain ⟨s', hrun, -, -⟩ :=
    failLoop_spec transport (if status = .success then .eshutdown else status)
      (pendingWeight s.pendingSends) [] s.pendingSends
      { s with transports := s.transports.erase transport } rfl (Nat.le_refl _)
  refine ⟨{ s' with shutdown := transport :: s'.shutdown }, ?_, ?_⟩
  · rw [closeCustomTransport, failTransportSends, hrun, Option.map_some]
  · exact failLoop_head transport _ _ s.pendingSends
      { s with transports := s.transports.erase transport } s' rfl hrun

/-- Two transports, a send on the first whose callback sends on it again, and a send on the second,
which stands in front: the first transport is closed and its second send is still pending. -/
theorem pending_send_outlives_close :
    ∃ s, runSends true [.create 1, .create 2, .send (plainSend 1 [plainSend 1 []]),
        .send (plainSend 2 []), .close 1 .success] = some s ∧
      1 ∈ s.shutdown ∧ ∃ p ∈ s.pendingSends, p.transport = 1 := by
  refine ⟨_, rfl, ?_, ?_⟩
  · decide
  · decide

end GmvPjsip.Transport
