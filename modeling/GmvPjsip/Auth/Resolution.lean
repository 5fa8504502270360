import GmvPjsip.Auth.Moves
import Mathlib.Data.List.Perm.Basic
import Mathlib.Data.List.Nodup

/-!
# Every queued REGISTER is resolved once

* `entered`, `leaves`: the entries that a history put into the queue and took out of it.
  `resolutions t` counts the attempts to answer the transaction `t` and its terminations, and
  `outcomes p` the events that told the application how the entry `p` ended.
* `Resolved` is the invariant of the ledger. The entered entries are those in the queue and those
  that left, in some order; each transaction of an entry has been resolved as often as its entry
  left.
* `register_resolved_once`: the invariant as a statement about runs. Since the entries are distinct,
  each has left at most once, and after a stop exactly once.
-/

namespace GmvPjsip.Auth

open GmvPjsip.Lib Relation

/-! ## What a history says about entries -/

/-- The entry that a record put into the queue. -/
def Record.enters : Record → List PendingAuth
  | .queued p _ _ => [p]
  | _ => []

/-- The entries that were put into the queue. -/
def entered (history : List Record) : List PendingAuth := history.flatMap Record.enters

/-- The entries that a record took out of the queue. -/
def Record.leaves : Record → List PendingAuth
  | .left p _ _ => [p]
  | .stopped entries => entries
  | _ => []

/-- The entries that were taken out of the queue. -/
def leaves (history : List Record) : List PendingAuth := history.flatMap Record.leaves

/-- The action answers or terminates the transaction. -/
def Action.resolves (transaction : ℕ) : Action → Bool
  | .respond (some t) _ _ _ _ => decide (t = transaction)
  | .terminate t _ => decide (t = transaction)
  | _ => false

/-- How often a transaction was answered or terminated. -/
def resolutions (transaction : ℕ) (history : List Record) : ℕ :=
  (history.flatMap Record.actions).countP (Action.resolves transaction)

/-- How often a record told the application how an entry ended. -/
def Record.outcomes (p : PendingAuth) : Record → ℕ
  | .queued q _ actions => if q = p then actions.countP Action.isOutcome else 0
  | .left q _ actions => if q = p then actions.countP Action.isOutcome else 0
  | _ => 0

/-- How often the application was told how an entry ended. -/
def outcomes (p : PendingAuth) (history : List Record) : ℕ :=
  (history.map (Record.outcomes p)).sum

@[simp] theorem entered_cons (r : Record) (history : List Record) :
    entered (r :: history) = r.enters ++ entered history := rfl

@[simp] theorem leaves_cons (r : Record) (history : List Record) :
    leaves (r :: history) = r.leaves ++ leaves history := rfl

@[simp] theorem resolutions_cons (t : ℕ) (r : Record) (history : List Record) :
    resolutions t (r :: history) = r.actions.countP (Action.resolves t) + resolutions t history := by
  unfold resolutions
  rw [List.flatMap_cons, List.countP_append]

@[simp] theorem outcomes_cons (p : PendingAuth) (r : Record) (history : List Record) :
    outcomes p (r :: history) = r.outcomes p + outcomes p history := rfl

/-! ## The invariant -/

/-- What an entry is resolved by when it leaves: one answer or termination of its own transaction,
and at most one event that says how it ended. -/
structure LeavesOnce (p : PendingAuth) (actions : List Action) : Prop where
  resolves : ∀ t, actions.countP (Action.resolves t) = if t = p.transaction then 1 else 0
  tells : actions.countP Action.isOutcome ≤ 1

/-- What holds of the queue and the history at any time. -/
structure Resolved (config : Config) (a : Ledger) : Prop where
  config_eq : a.core.config = config
  count : a.core.count = a.core.pending.length
  bound : a.core.count ≤ config.maxPendingAuth
  idle : a.core.started = false → a.core.pending = []
  perm : (entered a.history).Perm (a.core.pending ++ leaves a.history)
  fresh : ∀ p ∈ entered a.history, p.transaction < a.transactions
  distinct : ((entered a.history).map PendingAuth.transaction).Nodup
  unused : ∀ t, a.transactions ≤ t → resolutions t a.history = 0
  once : ∀ p ∈ entered a.history, resolutions p.transaction a.history = (leaves a.history).count p
  told : ∀ p, outcomes p a.history ≤ (leaves a.history).count p
  each : ∀ p cause actions, .left p cause actions ∈ a.history → LeavesOnce p actions

variable {p : PendingAuth} {core' : Core} {actions : List Action}

namespace Resolved

variable {config : Config} {a : Ledger}

theorem mem_entered (h : Resolved config a) (hp : p ∈ a.core.pending) : p ∈ entered a.history :=
  h.perm.mem_iff.mpr (List.mem_append_left _ hp)

/-- Entries are told apart by their transactions. -/
theorem eq_of_transaction (h : Resolved config a) {q : PendingAuth} (hp : p ∈ entered a.history)
    (hq : q ∈ entered a.history) (heq : p.transaction = q.transaction) : p = q :=
  List.inj_on_of_nodup_map h.distinct hp hq heq

/-- An entry in the queue has not left it. -/
theorem not_mem_leaves (h : Resolved config a) (hp : p ∈ a.core.pending) :
    p ∉ leaves a.history := by
  have hnodup := h.perm.nodup_iff.mp (h.distinct.of_map _)
  exact fun hmem => (List.nodup_append.mp hnodup).2.2 p hp p hmem rfl

/-- A record that neither enters nor takes out an entry, and resolves no transaction of one. -/
theorem quiet (h : Resolved config a) {transactions' : ℕ} {r : Record}
    (hconfig : core'.config = a.core.config) (hstarted : core'.started = a.core.started)
    (hpending : core'.pending = a.core.pending) (hcount : core'.count = a.core.count)
    (htrans : a.transactions ≤ transactions') (henters : r.enters = [])
    (hleaves : r.leaves = []) (hquiet : ∀ p, r.outcomes p = 0)
    (hresolves : ∀ t, r.actions.countP (Action.resolves t) ≠ 0 →
      a.transactions ≤ t ∧ t < transactions') :
    Resolved config ⟨core', transactions', r :: a.history⟩ := by
  have hsame : entered (r :: a.history) = entered a.history := by
    rw [entered_cons, henters, List.nil_append]
  have hold : ∀ p ∈ entered a.history, r.actions.countP (Action.resolves p.transaction) = 0 := by
    intro p hp
    by_contra hne
    exact absurd (h.fresh p hp) (Nat.not_lt.mpr (hresolves _ hne).1)
  constructor
  · exact hconfig.trans h.config_eq
  · rw [hcount, hpending, h.count]
  · rw [hcount]
    exact h.bound
  · rw [hstarted, hpending]
    exact h.idle
  · simp only [hsame, hpending, leaves_cons, hleaves, List.nil_append]
    exact h.perm
  · simp only [hsame]
    intro p hp
    exact Nat.lt_of_lt_of_le (h.fresh p hp) htrans
  · simp only [hsame]
    exact h.distinct
  · intro t ht
    rw [resolutions_cons, h.unused t (Nat.le_trans htrans ht), Nat.add_zero]
    by_contra hne
    exact absurd (hresolves t hne).2 (Nat.not_lt.mpr ht)
  · simp only [hsame, resolutions_cons, leaves_cons, hleaves, List.nil_append]
    intro p hp
    rw [hold p hp, Nat.zero_add]
    exact h.once p hp
  · simp only [outcomes_cons, leaves_cons, hleaves, List.nil_append, hquiet, Nat.zero_add]
    exact h.told
  · intro p cause actions hmem
    rcases List.mem_cons.mp hmem with rfl | hold
    · cases hleaves
    · exact h.each p cause actions hold

/-- An entry leaves. -/
theorem leave (h : Resolved config a) {kept rest : List PendingAuth} {cause : Cause}
    (hp : a.core.pending = kept ++ p :: rest)
    (hconfig : core'.config = a.core.config) (hstarted : core'.started = a.core.started)
    (hpending : core'.pending = kept ++ rest) (hcount : core'.count = a.core.count - 1)
    (hleaves : LeavesOnce p actions) :
    Resolved config ⟨core', a.transactions, .left p cause actions :: a.history⟩ := by
  have hmem : p ∈ entered a.history := h.mem_entered (by rw [hp]; simp)
  have hlen : a.core.count = (kept ++ rest).length + 1 := by
    rw [h.count, hp]
    simp only [List.length_append, List.length_cons]
    exact (Nat.add_assoc _ _ 1).symm
  constructor
  · exact hconfig.trans h.config_eq
  · rw [hcount, hpending, hlen]
    rfl
  · rw [hcount]
    exact Nat.le_trans (Nat.sub_le _ 1) h.bound
  · intro hidle
    rw [hstarted] at hidle
    have hnil := h.idle hidle
    rw [hp] at hnil
    exact absurd hnil (by simp)
  · have hold := h.perm
    rw [hp, List.append_assoc, List.cons_append] at hold
    simp only [entered_cons, leaves_cons, Record.enters, Record.leaves, List.nil_append,
      hpending, List.append_assoc, List.singleton_append]
    refine hold.trans ?_
    refine List.Perm.append_left kept ?_
    exact List.perm_middle.symm
  · exact h.fresh
  · exact h.distinct
  · intro t ht
    have hne : t ≠ p.transaction := fun heq => absurd (h.fresh p hmem) (Nat.not_lt.mpr (heq ▸ ht))
    rw [resolutions_cons, h.unused t ht]
    exact (hleaves.resolves t).trans (if_neg hne)
  · intro q hq
    rw [resolutions_cons, h.once q hq, leaves_cons, List.count_append]
    refine congrArg (· + _) ((hleaves.resolves q.transaction).trans ?_)
    by_cases hqp : q = p
    · subst hqp
      simp [Record.leaves]
    · have hne : q.transaction ≠ p.transaction := fun heq =>
        hqp (h.eq_of_transaction hq hmem heq)
      simp [Record.leaves, hne, Ne.symm hqp]
  · intro q
    rw [outcomes_cons, leaves_cons, List.count_append]
    refine Nat.add_le_add ?_ (h.told q)
    by_cases hqp : p = q
    · subst hqp
      simpa [Record.outcomes, Record.leaves] using hleaves.tells
    · simp [Record.outcomes, hqp]
  · intro q cause' actions' hmem
    rcases List.mem_cons.mp hmem with heq | hold
    · obtain ⟨rfl, -, rfl⟩ := Record.left.inj heq
      exact hleaves
    · exact h.each q cause' actions' hold

/-- An entry enters. -/
theorem enter (h : Resolved config a) {rx : RxData} (hstarted : a.core.started = true)
    (henters : Enters a.core a.transactions p actions core') :
    Resolved config ⟨core', a.transactions + 1, .queued p rx actions :: a.history⟩ := by
  have hemits : ∀ action ∈ actions, ∃ event, action = .emit event ∧
      event.eventType.isOutcome = false := by
    intro action hmem
    obtain ⟨event, rfl, htype⟩ := henters.actions action hmem
    refine ⟨event, rfl, ?_⟩
    rcases htype with htype | htype <;> rw [htype] <;> rfl
  have hnone : ∀ t, actions.countP (Action.resolves t) = 0 := by
    intro t
    rw [List.countP_eq_zero]
    intro action hmem
    obtain ⟨event, rfl, -⟩ := hemits action hmem
    simp [Action.resolves]
  have hquiet : actions.countP Action.isOutcome = 0 := by
    rw [List.countP_eq_zero]
    intro action hmem
    obtain ⟨event, rfl, htype⟩ := hemits action hmem
    simp [Action.isOutcome, htype]
  have hnew : p ∉ entered a.history := fun hmem =>
    absurd (h.fresh p hmem) (Nat.not_lt.mpr (Nat.le_of_eq henters.transaction.symm))
  have hleft : (leaves a.history).count p = 0 :=
    List.count_eq_zero.mpr fun hmem => hnew (h.perm.mem_iff.mpr (List.mem_append_right _ hmem))
  constructor
  · rw [henters.core']
    exact h.config_eq
  · simp only [henters.core', List.length_cons, h.count]
  · simp only [henters.core', ← h.config_eq]
    exact henters.room
  · simp only [henters.core']
    intro hidle
    rw [hstarted] at hidle
    cases hidle
  · simp only [henters.core', entered_cons, leaves_cons, Record.enters, Record.leaves,
      List.nil_append, List.cons_append]
    exact h.perm.cons p
  · intro q hq
    rcases List.mem_cons.mp hq with rfl | hold
    · rw [henters.transaction]
      exact Nat.lt_succ_self _
    · exact Nat.lt_succ_of_lt (h.fresh q hold)
  · simp only [entered_cons, Record.enters, List.singleton_append, List.map_cons, List.nodup_cons]
    refine ⟨?_, h.distinct⟩
    intro hmem
    obtain ⟨q, hq, heq⟩ := List.mem_map.mp hmem
    have hlt := h.fresh q hq
    rw [heq, henters.transaction] at hlt
    exact absurd hlt (Nat.lt_irrefl _)
  · intro t ht
    rw [resolutions_cons, h.unused t (Nat.le_of_succ_le ht)]
    exact hnone t
  · intro q hq
    have hcount : resolutions q.transaction (.queued p rx actions :: a.history) =
        resolutions q.transaction a.history := by
      rw [resolutions_cons]
      exact (congrArg (· + _) (hnone q.transaction)).trans (Nat.zero_add _)
    simp only [hcount, leaves_cons, Record.leaves, List.nil_append]
    rcases List.mem_cons.mp hq with rfl | hold
    · rw [hleft, henters.transaction]
      exact h.unused _ (Nat.le_refl _)
    · exact h.once q hold
  · intro q
    have hzero : Record.outcomes q (.queued p rx actions) = 0 := by
      unfold Record.outcomes
      simp only [hquiet, ite_self]
    simp only [outcomes_cons, leaves_cons, hzero, Nat.zero_add, Record.leaves, List.nil_append]
    exact h.told q
  · intro q cause actions' hmem
    rcases List.mem_cons.mp hmem with heq | hold
    · cases heq
    · exact h.each q cause actions' hold

/-- The runtime gives its entries up. -/
theorem release (h : Resolved config a) (hconfig : core'.config = a.core.config)
    (hpending : core'.pending = []) (hcount : core'.count = 0) :
    Resolved config ⟨core', a.transactions, .stopped a.core.pending :: a.history⟩ := by
  have hterm : ∀ t, (Record.stopped a.core.pending).actions.countP (Action.resolves t) =
      a.core.pending.countP (fun p => decide (p.transaction = t)) := by
    intro t
    exact List.countP_map
  constructor
  · exact hconfig.trans h.config_eq
  · rw [hcount, hpending]
    rfl
  · rw [hcount]
    exact Nat.zero_le _
  · exact fun _ => hpending
  · simp only [entered_cons, leaves_cons, Record.enters, Record.leaves, List.nil_append, hpending]
    exact h.perm
  · exact h.fresh
  · exact h.distinct
  · intro t ht
    rw [resolutions_cons, h.unused t ht, hterm, Nat.add_zero, List.countP_eq_zero]
    intro p hp heq
    have hlt := h.fresh p (h.mem_entered hp)
    rw [of_decide_eq_true heq] at hlt
    exact absurd hlt (Nat.not_lt.mpr ht)
  · intro q hq
    rw [resolutions_cons, h.once q hq, hterm, leaves_cons, List.count_append]
    refine congrArg (· + _) (List.countP_congr fun p hp => ?_)
    rw [decide_eq_true_iff, beq_iff_eq]
    exact ⟨fun heq => h.eq_of_transaction (h.mem_entered hp) hq heq, fun heq => heq ▸ rfl⟩
  · intro q
    rw [outcomes_cons, leaves_cons, List.count_append]
    exact Nat.le_trans (Nat.le_of_eq (Nat.zero_add _)) (Nat.le_trans (h.told q) (Nat.le_add_left _ _))
  · intro q cause actions hmem
    rcases List.mem_cons.mp hmem with heq | hold
    · cases heq
    · exact h.each q cause actions hold

end Resolved

/-! ## Moves keep the invariant -/

/-- An answer resolves the transaction it is on, once. -/
theorem leavesOnce_of_completes {pj : Pjsip} {env : CompleteEnv} {core : Core}
    {command : AuthCommand} {rx : RxData} {verdict : Verdict}
    {nonces : List AuthNonce} {status : PjStatus}
    (h : Completes pj env core p command rx verdict nonces status core' actions) :
    LeavesOnce p actions := by
  obtain ⟨issue, events, rfl, hissue, hreports⟩ := h.actions
  have hskip : ∀ f : Action → Bool, (∀ value now, f (.issued value now) = false) →
      issue.countP f = 0 := by
    intro f hf
    rw [List.countP_eq_zero]
    intro action hmem
    obtain ⟨value, now, rfl⟩ := hissue action hmem
    simp [hf]
  constructor
  · intro t
    have hevents : events.countP (Action.resolves t) = 0 := by
      rw [List.countP_eq_zero]
      intro action hmem
      obtain ⟨event, rfl, -⟩ := hreports.emits action hmem
      simp [Action.resolves]
    rw [List.countP_append, hskip _ fun _ _ => rfl, List.countP_cons, hevents]
    simp [Action.resolves, eq_comm]
  · rw [List.countP_append, hskip _ fun _ _ => rfl, Nat.zero_add]
    have hresp : ∀ t code ch st status, ¬ (Action.respond t code ch st status).isOutcome = true := by
      intro t code ch st status
      exact Bool.false_ne_true
    rw [List.countP_cons_of_neg (hresp _ _ _ _ _)]
    exact hreports.once

theorem leavesOnce_terminate (p : PendingAuth) : LeavesOnce p [.terminate p.transaction 500] := by
  constructor
  · intro t
    simp [Action.resolves, List.countP_cons, eq_comm]
  · exact List.countP_le_length

theorem leavesOnce_expire (p : PendingAuth) (status : PjStatus) (event : Event) : LeavesOnce p
      [.respond (some p.transaction) 504 false false status, .emit event] := by
  constructor
  · intro t
    simp [Action.resolves, List.countP_cons, eq_comm]
  · have hresp : ¬ (Action.respond (some p.transaction) 504 false false status).isOutcome = true :=
      Bool.false_ne_true
    rw [List.countP_cons_of_neg hresp]
    exact List.countP_le_length

theorem Resolved.move {pj : Pjsip} {config : Config} {a b : Ledger} (hmove : Move pj a b)
    (h : Resolved config a) : Resolved config b := by
  cases hmove with
  | purge => exact { h with }
  | answer rx actions hquiet =>
    refine h.quiet rfl rfl rfl rfl (Nat.le_succ _) rfl rfl (fun _ => rfl) ?_
    intro t hne
    obtain ⟨action, hmem, hres⟩ := List.countP_pos_iff.mp (Nat.pos_of_ne_zero hne)
    have hq := hquiet action hmem
    cases action with
    | issued | emit => cases hres
    | respond =>
      obtain ⟨rfl, -⟩ := hq
      cases hres
    | terminate transaction =>
      obtain rfl := of_decide_eq_true hres
      obtain rfl : transaction = a.transactions := hq
      exact ⟨Nat.le_refl _, Nat.lt_succ_self _⟩
  | enter rx p actions core' hstarted hparse hadmitted henters => exact h.enter hstarted henters
  | complete env kept rest p command rx verdict nonces status core' actions hpending hid hcomp =>
    have hcore := hcomp.core'
    refine h.leave hpending ?_ ?_ ?_ ?_ (leavesOnce_of_completes hcomp) <;> rw [hcore] <;> rfl
  | terminate kept rest p cause hpending =>
    exact h.leave hpending rfl rfl rfl rfl (leavesOnce_terminate p)
  | expire kept rest p status event hpending =>
    exact h.leave hpending rfl rfl rfl rfl (leavesOnce_expire p status event)
  | finish =>
    exact h.quiet rfl rfl rfl rfl (Nat.le_refl _) rfl rfl (fun _ => rfl)
      fun t hne => absurd rfl hne
  | start =>
    refine { h with idle := ?_ }
    intro hidle
    cases hidle
  | release => exact h.release rfl rfl rfl

/-! ## Runs -/

theorem resolved_init (config : Config) : Resolved config (Sys.init config).ledger := by
  constructor
  · rfl
  · rfl
  · exact Nat.zero_le _
  · exact fun _ => rfl
  · exact List.Perm.nil
  · exact fun p hp => by cases hp
  · exact List.nodup_nil
  · exact fun _ _ => rfl
  · exact fun p hp => by cases hp
  · exact fun _ => Nat.le_refl 0
  · exact fun p cause actions hmem => by cases hmem

theorem run_resolved (pj : Pjsip) (config : Config) (inputs : List Input) :
    Resolved config (run pj config inputs).ledger := by
  apply run_induction (resolved_init config)
  · exact fun a b hmove h => h.move hmove
  · exact fun a grants h => { h with }

/-- A runtime that was stopped has an empty queue. -/
theorem stopRuntime_pendingAuth {config : Config} {s : Sys} (h : Resolved config s.ledger) :
    (stopRuntime s).runtime.pendingAuth = [] := by
  unfold stopRuntime
  by_cases hstarted : s.runtime.started = true
  · simp only [hstarted, Bool.not_true, Bool.false_eq_true, if_false]
    rfl
  · simp only [hstarted, Bool.not_false, if_true]
    exact h.idle (Bool.eq_false_iff.mpr hstarted)

/-- **Every queued REGISTER is resolved once.** The counter is the length of the queue and within its
bound. Transactions tell entries apart, and an entry that was put into the queue is either in it,
with nothing done to its transaction, or has left it once, with one answer or termination of its
transaction. Each entry that left alone was resolved when it left, and a stop leaves none behind. -/
theorem register_resolved_once (pj : Pjsip) (config : Config) (inputs : List Input) :
    let s := run pj config inputs
    s.runtime.pendingAuthCount = s.runtime.pendingAuth.length ∧
      s.runtime.pendingAuthCount ≤ config.maxPendingAuth ∧
      ((entered s.history).map PendingAuth.transaction).Nodup ∧
      (∀ p ∈ s.runtime.pendingAuth ++ leaves s.history, p ∈ entered s.history) ∧
      (∀ p ∈ entered s.history, (s.runtime.pendingAuth.count p = 1 ∧ (leaves s.history).count p = 0 ∧
            resolutions p.transaction s.history = 0 ∧ outcomes p s.history = 0) ∨
          (s.runtime.pendingAuth.count p = 0 ∧ (leaves s.history).count p = 1 ∧
            resolutions p.transaction s.history = 1 ∧ outcomes p s.history ≤ 1)) ∧
      (∀ p cause actions, .left p cause actions ∈ s.history → LeavesOnce p actions) ∧
      (run pj config (inputs ++ [.stop])).runtime.pendingAuth = [] := by
  have h := run_resolved pj config inputs
  refine ⟨h.count, h.bound, h.distinct, fun p hp => h.perm.mem_iff.mpr hp, ?_, h.each, ?_⟩
  · intro p hp
    have hone : (entered (run pj config inputs).history).count p = 1 :=
      List.count_eq_one_of_mem (h.distinct.of_map _) hp
    have hsum := h.perm.count_eq p
    have htold := h.told p
    have hres := h.once p hp
    rw [List.count_append] at hsum
    simp only [Sys.ledger, Runtime.core] at hsum htold hres
    omega
  · unfold run
    rw [List.foldl_append]
    exact stopRuntime_pendingAuth h

end GmvPjsip.Auth
