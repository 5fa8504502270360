import Mathlib.Data.List.Nodup
import Mathlib.Logic.Function.Basic
import Mathlib.Tactic.Common

/-!
# Singly linked queues with a head and a tail pointer

The queue that C code writes down by hand: cells on a heap, a pointer to the first and one to the
last. It works on pointers; what it means is a list.

* `LinkedQueue.Represents q xs` says that walking from the head meets exactly `xs`, and that the
  tail is the last cell. It fixes both pointers, also those of an empty queue.
* `Represents.push`, `Represents.detach` and `Represents.release` say what the three loops that
  work on such a queue do to the list.
-/

namespace GmvPjsip.Lib

/-- A cell: a value and the address of the next cell. -/
structure Cell (α : Type) where
  value : α
  next : Option ℕ
  deriving DecidableEq, Repr

/-- A queue: its heap, the next address the allocator hands out, and the two pointers. -/
structure LinkedQueue (α : Type) where
  heap : ℕ → Option (Cell α)
  fresh : ℕ
  head : Option ℕ
  tail : Option ℕ

variable {cells : List ℕ}

namespace LinkedQueue

variable {α : Type}

/-- Both pointers are null. -/
def empty : LinkedQueue α := ⟨fun _ => none, 0, none, none⟩

/-- `cell->next = target`. -/
def link (heap : ℕ → Option (Cell α)) (cell target : ℕ) : ℕ → Option (Cell α) :=
  Function.update heap cell ((heap cell).map fun c => { c with next := some target })

/-- Allocate a cell and hook it behind the tail, or make it the head if there is no tail. -/
def push (q : LinkedQueue α) (x : α) : LinkedQueue α :=
  let heap := Function.update q.heap q.fresh (some ⟨x, none⟩)
  match q.tail with
  | some last => ⟨link heap last q.fresh, q.fresh + 1, q.head, some q.fresh⟩
  | none => ⟨heap, q.fresh + 1, some q.fresh, some q.fresh⟩

/-- The loop that follows the cells from a pointer: it reads `next` before it frees a cell. A queue
has fewer cells than it was handed addresses, which is what `fuel` counts. -/
def walk : ℕ → (ℕ → Option (Cell α)) → Option ℕ → List α × (ℕ → Option (Cell α))
  | 0, heap, _ => ([], heap)
  | _ + 1, heap, none => ([], heap)
  | fuel + 1, heap, some cell =>
    match heap cell with
    | none => ([], heap)
    | some c =>
      let (xs, heap') := walk fuel (Function.update heap cell none) c.next
      (c.value :: xs, heap')

/-- Take the whole queue by its head, reset both pointers and walk what was taken. -/
def detach (q : LinkedQueue α) : List α × LinkedQueue α :=
  let (xs, heap) := walk q.fresh q.heap q.head
  (xs, ⟨heap, q.fresh, none, none⟩)

/-- The loop that pops the head until it is null. -/
def popAll : ℕ → LinkedQueue α → List α × LinkedQueue α
  | 0, q => ([], q)
  | fuel + 1, q =>
    match q.head with
    | none => ([], q)
    | some cell =>
      match q.heap cell with
      | none => ([], q)
      | some c =>
        let (xs, q') := popAll fuel { q with heap := Function.update q.heap cell none, head := c.next }
        (c.value :: xs, q')

/-- Pop every cell, then reset the tail. -/
def release (q : LinkedQueue α) : List α × LinkedQueue α :=
  let (xs, q') := popAll q.fresh q
  (xs, { q' with tail := none })

/-! ## What a queue means -/

/-- The cells at these addresses hold these values, each pointing to the next. -/
def Linked (heap : ℕ → Option (Cell α)) : List ℕ → List α → Prop
  | [], [] => True
  | cell :: cells, x :: xs => heap cell = some ⟨x, cells.head?⟩ ∧ Linked heap cells xs
  | _, _ => False

/-- The queue holds these values. -/
def Represents (q : LinkedQueue α) (xs : List α) : Prop :=
  ∃ cells : List ℕ, Linked q.heap cells xs ∧ cells.Nodup ∧ (∀ cell ∈ cells, cell < q.fresh) ∧
    cells.length ≤ q.fresh ∧ q.head = cells.head? ∧ q.tail = cells.getLast?

/-- Only the cells of the chain matter. -/
theorem Linked.congr {heap heap' : ℕ → Option (Cell α)} {xs : List α} (h : Linked heap cells xs)
    (hsame : ∀ cell ∈ cells, heap' cell = heap cell) :
    Linked heap' cells xs := by
  induction cells generalizing xs with
  | nil =>
    cases xs with
    | nil => trivial
    | cons x xs => exact h.elim
  | cons cell cells ih =>
    cases xs with
    | nil => exact h.elim
    | cons x xs =>
      refine ⟨?_, ih h.2 fun other hmem => hsame other (List.mem_cons_of_mem _ hmem)⟩
      rw [hsame cell List.mem_cons_self]
      exact h.1

/-- Freeing a cell outside the chain leaves the chain alone. -/
theorem Linked.update {heap : ℕ → Option (Cell α)} {xs : List α} {other : ℕ}
    (h : Linked heap cells xs) (hnot : other ∉ cells) (content : Option (Cell α)) :
    Linked (Function.update heap other content) cells xs := by
  apply h.congr
  intro cell hcell
  have hne : cell ≠ other := fun heq => hnot (heq ▸ hcell)
  exact Function.update_of_ne hne _ _

/-- Hooking a new cell behind the last one extends the chain. -/
theorem Linked.snoc {heap : ℕ → Option (Cell α)} {last new : ℕ} {xs : List α} {x : α}
    (h : Linked heap (cells ++ [last]) xs) (hnodup : (cells ++ [last]).Nodup)
    (hnew : new ∉ cells ++ [last]) :
    Linked (link (Function.update heap new (some ⟨x, none⟩)) last new)
      (cells ++ [last] ++ [new]) (xs ++ [x]) := by
  have hlast : last ≠ new := fun heq => hnew (heq ▸ List.mem_append_right _ List.mem_cons_self)
  induction cells generalizing xs with
  | nil =>
    match xs, h with
    | [y], h =>
      have hread : Function.update heap new (some ⟨x, none⟩) last = some ⟨y, none⟩ := by
        rw [Function.update_of_ne hlast]
        exact h.1
      refine ⟨?_, ?_, trivial⟩
      · simp [link, hread]
      · simp [link, Function.update_of_ne hlast.symm]
  | cons cell cells ih =>
    match xs, h with
    | y :: ys, h =>
      have hnotin : cell ∉ cells ++ [last] := (List.nodup_cons.mp hnodup).1
      have hcell : cell ≠ last := fun heq =>
        hnotin (heq ▸ List.mem_append_right _ List.mem_cons_self)
      have hcell' : cell ≠ new := fun heq => hnew (heq ▸ List.mem_cons_self)
      refine ⟨?_, ih h.2 (List.nodup_cons.mp hnodup).2
        fun hmem => hnew (List.mem_cons_of_mem _ hmem)⟩
      have hread : heap cell = some ⟨y, (cells ++ [last]).head?⟩ := h.1
      rw [link, Function.update_of_ne hcell, Function.update_of_ne hcell', hread]
      cases cells <;> rfl

/-- The walk from the first cell of a chain meets its values. -/
theorem Linked.walk {heap : ℕ → Option (Cell α)} {xs : List α} {fuel : ℕ} (h : Linked heap cells xs)
    (hnodup : cells.Nodup) (hfuel : cells.length ≤ fuel) :
    (walk fuel heap cells.head?).1 = xs := by
  induction cells generalizing heap xs fuel with
  | nil =>
    match xs, h with
    | [], _ => cases fuel <;> rfl
  | cons cell cells ih =>
    match xs, h, fuel, hfuel with
    | x :: xs, h, fuel + 1, hfuel =>
      have hrest := ih (h.2.update (List.nodup_cons.mp hnodup).1 none)
        (List.nodup_cons.mp hnodup).2 (Nat.le_of_succ_le_succ hfuel)
      have hread : heap cell = some ⟨x, cells.head?⟩ := h.1
      simp only [List.head?_cons, LinkedQueue.walk, hread, hrest]

/-- Popping reads the same values and ends with a null head. -/
theorem Linked.popAll {q : LinkedQueue α} {xs : List α} {fuel : ℕ} (h : Linked q.heap cells xs)
    (hhead : q.head = cells.head?) (hnodup : cells.Nodup)
    (hfuel : cells.length ≤ fuel) :
    (popAll fuel q).1 = xs ∧ (popAll fuel q).2.head = none := by
  induction cells generalizing q xs fuel with
  | nil =>
    have hnull : q.head = none := hhead
    match xs, h with
    | [], _ => cases fuel <;> simp [LinkedQueue.popAll, hnull]
  | cons cell cells ih =>
    match xs, h, fuel, hfuel with
    | x :: xs, h, fuel + 1, hfuel =>
      have hread : q.heap cell = some ⟨x, cells.head?⟩ := h.1
      have hrest := ih
        (q := { q with heap := Function.update q.heap cell none, head := cells.head? })
        (h.2.update (List.nodup_cons.mp hnodup).1 none) rfl
        (List.nodup_cons.mp hnodup).2 (Nat.le_of_succ_le_succ hfuel)
      have hpop : q.head = some cell := hhead
      simp only [LinkedQueue.popAll, hpop, hread, hrest.1, hrest.2, and_self]

/-! ## The operations on the list -/

/-- A queue whose pointers are null holds nothing. -/
theorem represents_nil {q : LinkedQueue α} (hhead : q.head = none) (htail : q.tail = none) :
    q.Represents [] :=
  ⟨[], trivial, List.nodup_nil, fun _ h => absurd h List.not_mem_nil, Nat.zero_le _, hhead, htail⟩

@[simp] theorem represents_empty : (empty : LinkedQueue α).Represents [] := represents_nil rfl rfl

theorem push_fresh (q : LinkedQueue α) (x : α) : (q.push x).fresh = q.fresh + 1 := by
  unfold LinkedQueue.push
  cases q.tail <;> rfl

/-- Pushing appends. -/
theorem Represents.push {q : LinkedQueue α} {xs : List α} (h : q.Represents xs) (x : α) :
    (q.push x).Represents (xs ++ [x]) := by
  obtain ⟨cells, hlinked, hnodup, hbound, hlength, hhead, htail⟩ := h
  have hfresh : q.fresh ∉ cells := fun hmem => Nat.lt_irrefl _ (hbound _ hmem)
  refine ⟨cells ++ [q.fresh], ?_, ?_, ?_, ?_, ?_, ?_⟩
  · rcases List.eq_nil_or_concat cells with rfl | ⟨front, last, rfl⟩
    · match xs, hlinked with
      | [], _ => simp [LinkedQueue.push, htail, Linked]
    · rw [List.concat_eq_append] at hlinked hnodup hfresh htail ⊢
      have hlast : q.tail = some last := by rw [htail, List.getLast?_append]; rfl
      simp only [LinkedQueue.push, hlast]
      exact hlinked.snoc hnodup hfresh
  · exact List.nodup_append.mpr ⟨hnodup, List.nodup_singleton _, by
      rintro cell hcell other hother rfl
      exact hfresh (List.mem_singleton.mp hother ▸ hcell)⟩
  · intro cell hcell
    rw [push_fresh]
    rcases List.mem_append.mp hcell with hold | hnew
    · exact Nat.lt_succ_of_lt (hbound cell hold)
    · exact Nat.lt_succ_of_le (Nat.le_of_eq (List.mem_singleton.mp hnew))
  · rw [push_fresh, List.length_append]
    exact Nat.succ_le_succ hlength
  · cases cells with
    | nil => simp [LinkedQueue.push, htail]
    | cons cell cells =>
      have hsome : ∃ last, q.tail = some last := ⟨_, htail.trans (List.getLast?_cons ..)⟩
      obtain ⟨last, hlast⟩ := hsome
      simp [LinkedQueue.push, hlast, hhead]
  · unfold LinkedQueue.push
    cases q.tail <;> simp

/-- Detaching yields the values in order and leaves an empty queue. -/
theorem Represents.detach {q : LinkedQueue α} {xs : List α} (h : q.Represents xs) :
    q.detach.1 = xs ∧ q.detach.2.Represents [] := by
  obtain ⟨cells, hlinked, hnodup, -, hlength, hhead, -⟩ := h
  refine ⟨?_, represents_nil rfl rfl⟩
  simp only [LinkedQueue.detach, hhead]
  exact hlinked.walk hnodup hlength

/-- So does releasing. -/
theorem Represents.release {q : LinkedQueue α} {xs : List α} (h : q.Represents xs) :
    q.release.1 = xs ∧ q.release.2.Represents [] := by
  obtain ⟨cells, hlinked, hnodup, -, hlength, hhead, -⟩ := h
  obtain ⟨hvalues, hnull⟩ := hlinked.popAll hhead hnodup hlength
  exact ⟨hvalues, represents_nil hnull rfl⟩

end LinkedQueue

end GmvPjsip.Lib
