import GmvPjsip.Lib.Keyed

/-!
# The nonces a server has given out

A nonce is valid up to and including the instant it expires; a cleanup removes the nonces that expire at
or before its instant. The two disagree at one instant.

* `NonceStore` is the store, with `issue`, `valid` and `cleanup`.
* `answers` is what the calls of `valid` return in a run, and `Inserted` says that a run is another one
  with further cleanups in it.
* `cleanup_invisible_iff`: further cleanups change no answer exactly if no valid nonce is asked for at
  the instant it expires.
-/

namespace GmvPjsip.Digest

open GmvPjsip.Lib

/-! ## The store -/

/-- The nonces with the instants they expire at.

Source: `src/auth/mod.rs`, `NonceStore` -/
structure NonceStore where
  items : List (List Char × ℕ)
  /-- The entries of a map have distinct keys. -/
  nodup : (items.map Prod.fst).Nodup
  ttl : ℕ

variable {nonce : List Char} {s : NonceStore} {run : Run}

namespace NonceStore

/-- Source: `src/auth/mod.rs`, `NonceStore::new` -/
def new (ttl : ℕ) : NonceStore := ⟨[], List.nodup_nil, ttl⟩

/-- The instant a nonce expires at. -/
def expiry (s : NonceStore) (nonce : List Char) : Option ℕ :=
  (Keyed.get Prod.fst nonce s.items).map Prod.snd

/-- The nonce is drawn at random.

Source: `src/auth/mod.rs`, `NonceStore::issue` -/
def issue (s : NonceStore) (now : ℕ) (nonce : List Char) : NonceStore :=
  { s with
    items := Keyed.put Prod.fst (nonce, now + s.ttl) s.items
    nodup := Keyed.nodup_put s.nodup }

/-- Source: `src/auth/mod.rs`, `NonceStore::valid` -/
def valid (s : NonceStore) (now : ℕ) (nonce : List Char) : Bool :=
  ((s.expiry nonce).map fun v => decide (now ≤ v)).getD false

/-- Source: `src/auth/mod.rs`, `NonceStore::cleanup` -/
def cleanup (s : NonceStore) (now : ℕ) : ℕ × NonceStore :=
  let items := s.items.filter fun item => item.2 > now
  (s.items.length - items.length,
    { s with items, nodup := s.nodup.sublist (List.filter_sublist.map Prod.fst) })

/-! ## What the calls do -/

section calls
variable (s : NonceStore) (now : ℕ)

theorem expiry_issue_self (nonce : List Char) :
    (s.issue now nonce).expiry nonce = some (now + s.ttl) := by
  have hget : Keyed.get Prod.fst nonce (s.issue now nonce).items = some (nonce, now + s.ttl) :=
    Keyed.get_put_self (a := (nonce, now + s.ttl))
  rw [expiry, hget, Option.map_some]

theorem expiry_issue_ne {n : List Char} (h : n ≠ nonce) :
    (s.issue now nonce).expiry n = s.expiry n :=
  congrArg (Option.map Prod.snd) (Keyed.get_put_ne h)

theorem expiry_cleanup (n : List Char) :
    (s.cleanup now).2.expiry n = (s.expiry n).filter (now < ·) := by
  have hget := Keyed.get_filter (k := n) (p := fun item => decide (item.2 > now)) s.nodup
  show (Keyed.get Prod.fst n (s.items.filter fun item => decide (item.2 > now))).map Prod.snd = _
  rw [hget, expiry]
  cases Keyed.get Prod.fst n s.items with
  | none => rfl
  | some item =>
    rw [Option.map_some, Option.filter_some, Option.filter_some]
    split_ifs <;> rfl

theorem valid_of_some {e : ℕ} (h : s.expiry nonce = some e) :
    s.valid now nonce = decide (now ≤ e) := by
  rw [valid, h, Option.map_some, Option.getD_some]

theorem valid_of_none (h : s.expiry nonce = none) : s.valid now nonce = false := by
  rw [valid, h, Option.map_none, Option.getD_none]

/-- A cleanup counts what it removes. -/
theorem cleanup_count : ∃ removed, s.items.Perm (removed ++ (s.cleanup now).2.items) ∧
    (s.cleanup now).1 = removed.length := by
  have hperm := List.filter_append_perm (fun item : List Char × ℕ => decide (item.2 > now)) s.items
  refine ⟨_, (List.perm_append_comm.trans hperm).symm, ?_⟩
  have hlength := hperm.length_eq
  rw [List.length_append] at hlength
  show s.items.length - (s.items.filter fun item => decide (item.2 > now)).length = _
  omega

end calls

/-! ## Runs -/

/-- A call. -/
inductive Op
  | issue (nonce : List Char)
  | valid (nonce : List Char)
  | cleanup
  deriving DecidableEq, Repr

/-- A run: the calls, each with the reading of the clock. -/
abbrev Run := List (ℕ × Op)

/-- The store after a call. -/
def step (s : NonceStore) (now : ℕ) : Op → NonceStore
  | .issue nonce => s.issue now nonce
  | .valid _ => s
  | .cleanup => (s.cleanup now).2

/-- The store after a run. -/
def final (s : NonceStore) (run : Run) : NonceStore := run.foldl (fun s call => s.step call.1 call.2) s

/-- What a call of `valid` returns. -/
def answer (s : NonceStore) (now : ℕ) : Op → List Bool
  | .issue _ => []
  | .valid nonce => [s.valid now nonce]
  | .cleanup => []

/-- What the calls of `valid` return. -/
def answers (s : NonceStore) : Run → List Bool
  | [] => []
  | (now, op) :: rest => s.answer now op ++ (s.step now op).answers rest

/-- The clock does not go back. -/
def Ordered : ℕ → Run → Prop
  | _, [] => True
  | now, (t, _) :: rest => now ≤ t ∧ Ordered t rest

instance decidableOrdered : (now : ℕ) → (run : Run) → Decidable (Ordered now run)
  | _, [] => isTrue trivial
  | now, (t, _) :: rest =>
    have := decidableOrdered t rest
    inferInstanceAs (Decidable (now ≤ t ∧ Ordered t rest))

/-- The second run is the first one with further cleanups. -/
inductive Inserted : Run → Run → Prop
  | nil : Inserted [] []
  | keep (call : ℕ × Op) {run run' : Run} : Inserted run run' → Inserted (call :: run) (call :: run')
  | cleanup (now : ℕ) {run run' : Run} : Inserted run run' → Inserted run ((now, .cleanup) :: run')

theorem answers_append (s : NonceStore) (pre post : Run) :
    s.answers (pre ++ post) = s.answers pre ++ (s.final pre).answers post := by
  induction pre generalizing s with
  | nil => rfl
  | cons call pre ih =>
    rw [List.cons_append, answers, answers, ih, List.append_assoc]
    rfl

/-! ## Further cleanups -/

/-- The second store lacks some nonces that are expired. -/
structure Behind (now : ℕ) (s s' : NonceStore) : Prop where
  ttl : s'.ttl = s.ttl
  expiry : ∀ n, s'.expiry n = s.expiry n ∨ (s'.expiry n = none ∧ ∃ e, s.expiry n = some e ∧ e ≤ now)

section behind
variable {now t : ℕ} {s s' : NonceStore}

theorem Behind.mono (h : Behind now s s') (ht : now ≤ t) : Behind t s s' := by
  refine ⟨h.ttl, fun n => (h.expiry n).imp_right ?_⟩
  rintro ⟨hnone, e, he, hle⟩
  exact ⟨hnone, e, he, Nat.le_trans hle ht⟩

theorem Behind.issue (h : Behind now s s') (nonce : List Char) :
    Behind now (s.issue t nonce) (s'.issue t nonce) := by
  refine ⟨h.ttl, fun n => ?_⟩
  by_cases hn : n = nonce
  · left
    rw [hn, expiry_issue_self, expiry_issue_self, h.ttl]
  · rw [expiry_issue_ne _ _ hn, expiry_issue_ne _ _ hn]
    exact h.expiry n

/-- A cleanup of both stores. -/
theorem Behind.cleanup (h : Behind now s s') : Behind now (s.cleanup now).2 (s'.cleanup now).2 := by
  refine ⟨h.ttl, fun n => ?_⟩
  rw [expiry_cleanup, expiry_cleanup]
  rcases h.expiry n with heq | ⟨hnone, e, he, hle⟩
  · rw [heq]
    exact Or.inl rfl
  · left
    rw [hnone, he, Option.filter_some, if_neg (by simpa using hle)]
    rfl

/-- A cleanup of the second store. -/
theorem Behind.cleanup_right (h : Behind now s s') : Behind now s (s'.cleanup now).2 := by
  refine ⟨h.ttl, fun n => ?_⟩
  rw [expiry_cleanup]
  rcases h.expiry n with heq | ⟨hnone, hexpired⟩
  · rw [heq]
    cases hexpiry : s.expiry n with
    | none => exact Or.inl rfl
    | some e =>
      rw [Option.filter_some]
      split_ifs with hlive
      · exact Or.inl rfl
      · exact Or.inr ⟨rfl, e, rfl, by simpa using hlive⟩
  · rw [hnone]
    exact Or.inr ⟨rfl, hexpired⟩

/-- Away from the instant of expiry both stores answer the same. -/
theorem Behind.valid (h : Behind now s s') (hne : s.expiry nonce ≠ some now) :
    s'.valid now nonce = s.valid now nonce := by
  rcases h.expiry nonce with heq | ⟨hnone, e, he, hle⟩
  · rw [NonceStore.valid, NonceStore.valid, heq]
  · have hlt : e < now := Nat.lt_of_le_of_ne hle fun heq => hne (heq ▸ he)
    rw [valid_of_none _ _ hnone, valid_of_some _ _ he, decide_eq_false (Nat.not_le.mpr hlt)]

end behind

/-- No valid nonce is asked for at the instant it expires. -/
def NoTie (s : NonceStore) (run : Run) : Prop :=
  ∀ pre t nonce post, run = pre ++ (t, .valid nonce) :: post → (s.final pre).expiry nonce ≠ some t

theorem NoTie.tail {call : ℕ × Op} (h : s.NoTie (call :: run)) :
    (s.step call.1 call.2).NoTie run := by
  rintro pre t nonce post rfl
  exact h (call :: pre) t nonce post rfl

/-- Away from ties further cleanups change no answer. -/
theorem answers_of_inserted {run' : Run} (h : Inserted run run') {now : ℕ} {s' : NonceStore}
    (hbehind : Behind now s s') (hordered : Ordered now run') (htie : s.NoTie run) :
    s'.answers run' = s.answers run := by
  induction h generalizing now s s' with
  | nil => rfl
  | @keep call run run' hrest ih =>
    obtain ⟨t, op⟩ := call
    have hbehind' := hbehind.mono hordered.1
    cases op with
    | issue nonce => exact ih (hbehind'.issue nonce) hordered.2 htie.tail
    | valid nonce =>
      have hvalid := hbehind'.valid (htie [] t nonce run rfl)
      rw [answers, answers, answer, answer, hvalid]
      exact congrArg _ (ih hbehind' hordered.2 htie.tail)
    | cleanup => exact ih hbehind'.cleanup hordered.2 htie.tail
  | cleanup t hrest ih => exact ih (hbehind.mono hordered.1).cleanup_right hordered.2 htie

/-! ## The tie -/

theorem inserted_self (run : Run) : Inserted run run := by
  induction run with
  | nil => exact .nil
  | cons call run ih => exact .keep call ih

theorem inserted_append (pre : Run) {run' : Run} (h : Inserted run run') :
    Inserted (pre ++ run) (pre ++ run') := by
  induction pre with
  | nil => exact h
  | cons call pre ih => exact .keep call ih

/-- A cleanup may stand right in front of a call, at the same reading of the clock. -/
theorem ordered_insert {now t : ℕ} {op : Op} {pre post : Run}
    (h : Ordered now (pre ++ (t, op) :: post)) :
    Ordered now (pre ++ (t, .cleanup) :: (t, op) :: post) := by
  induction pre generalizing now with
  | nil => exact ⟨h.1, Nat.le_refl t, h.2⟩
  | cons call pre ih => exact ⟨h.1, ih h.2⟩

/-- A cleanup at the instant of expiry takes the nonce away. -/
theorem answers_ne_of_tie {pre post : Run} {t : ℕ} (h : (s.final pre).expiry nonce = some t) :
    s.answers (pre ++ (t, .cleanup) :: (t, .valid nonce) :: post) ≠
      s.answers (pre ++ (t, .valid nonce) :: post) := by
  have hnone : ((s.final pre).cleanup t).2.expiry nonce = none := by
    rw [expiry_cleanup, h, Option.filter_some, if_neg (by simp)]
  intro heq
  rw [answers_append, answers_append, List.append_cancel_left_eq] at heq
  have hhead : ((s.final pre).cleanup t).2.valid t nonce = (s.final pre).valid t nonce :=
    (List.cons.inj heq).1
  rw [valid_of_none _ _ hnone, valid_of_some _ _ h, decide_eq_true (Nat.le_refl t)] at hhead
  cases hhead

/-- **When further cleanups are invisible.** In a run with a clock that does not go back, further cleanups
at any points and readings in between change no answer of `valid` exactly if the run never asks for a
nonce, still in the store, at the instant it expires. A cleanup returns the number of nonces it removes. -/
theorem cleanup_invisible_iff (ttl : ℕ) {run : Run} (hordered : Ordered 0 run) :
    ((∀ run', Inserted run run' → Ordered 0 run' → (new ttl).answers run' = (new ttl).answers run) ↔
      (new ttl).NoTie run) ∧
    ∀ (s : NonceStore) (now : ℕ), ∃ removed, s.items.Perm (removed ++ (s.cleanup now).2.items) ∧
      (s.cleanup now).1 = removed.length := by
  refine ⟨⟨fun hsame => ?_, fun htie run' hinserted hordered' => ?_⟩, cleanup_count⟩
  · rintro pre t nonce post rfl hexpiry
    refine answers_ne_of_tie hexpiry (hsame _ ?_ (ordered_insert hordered))
    exact inserted_append pre (.cleanup t (inserted_self _))
  · exact answers_of_inserted hinserted ⟨rfl, fun n => Or.inl rfl⟩ hordered' htie

/-- A nonce that is asked for before it expires. -/
def askedEarly : Run := [(0, .issue ['n']), (4, .valid ['n'])]

theorem askedEarly_noTie : (new 5).NoTie askedEarly := by
  intro pre t nonce post heq
  match pre with
  | [] => cases heq
  | [_] =>
    cases heq
    decide
  | _ :: _ :: _ =>
    have hlength := congrArg List.length heq
    simp [askedEarly] at hlength

theorem askedEarly_cleanup_invisible :
    Ordered 0 askedEarly ∧ ∀ run', Inserted askedEarly run' → Ordered 0 run' →
      (new 5).answers run' = [true] :=
  have hordered : Ordered 0 askedEarly := by decide
  ⟨hordered, fun run' hinserted hordered' =>
    (cleanup_invisible_iff 5 hordered).1.mpr askedEarly_noTie run' hinserted hordered'⟩

/-- A nonce that is asked for at the instant it expires, without and with a cleanup at that instant. -/
theorem cleanup_visible_at_expiry : (new 5).answers [(0, .issue ['n']), (5, .valid ['n'])] = [true] ∧
      (new 5).answers [(0, .issue ['n']), (5, .cleanup), (5, .valid ['n'])] = [false] ∧
      Inserted [(0, .issue ['n']), (5, .valid ['n'])]
        [(0, .issue ['n']), (5, .cleanup), (5, .valid ['n'])] ∧
      Ordered 0 [(0, .issue ['n']), (5, .cleanup), (5, .valid ['n'])] :=
  ⟨by decide, by decide, .keep _ (.cleanup 5 (.keep _ .nil)), by decide⟩

end NonceStore

end GmvPjsip.Digest
