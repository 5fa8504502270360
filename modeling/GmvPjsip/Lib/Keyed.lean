import Mathlib.Data.List.Basic
import Mathlib.Data.List.Nodup

/-!
# Linked lists searched by a key

A list of records, each with a key, that is searched from the front, changed in place at the first
match and extended at the front. With distinct keys such a list is a finite map.

* `get` finds the first record with a key, `set` overwrites it, `erase` unlinks it. `put` overwrites
  it or, if there is none, adds a record at the front.
* `get_set_self`, `get_set_ne`, `get_put_self`, `get_put_ne`, `get_erase_self`, `get_erase_ne`: the
  list behaves as a map.
* `get_filter`, `any_key`: unlinking by a condition and searching for a record that meets one, by
  way of the map.
* `get_foldl_put`, `mem_or_mem_of_mem_foldl_put`: a list made by putting records one after the other.
* `map_key_set`, `nodup_put`, `nodup_erase`: the operations keep the keys distinct.
* `map_at`, `filter_ne_at`, `filter_eq_at`: with distinct keys, what is done to every record with the
  key of one is done to that one.
* `perm_splice`, `perm_filter`: where records that are taken out are kept on a second list, no key is
  lost. `filter_notMem_at`, `subset_at`: records taken out one after the other.
-/

namespace GmvPjsip.Lib.Keyed

variable {α κ : Type*} [DecidableEq κ] (key : α → κ)

/-- The first record with the key `k`. -/
def get (k : κ) : List α → Option α
  | [] => none
  | x :: xs => if key x = k then some x else get k xs

/-- Overwrite the first record with the key `k`. -/
def set (k : κ) (a : α) : List α → List α
  | [] => []
  | x :: xs => if key x = k then a :: xs else x :: set k a xs

/-- Unlink the first record with the key `k`. -/
def erase (k : κ) : List α → List α
  | [] => []
  | x :: xs => if key x = k then xs else x :: erase k xs

/-- Overwrite the first record with the key of `a`, or add `a` at the front. -/
def put (a : α) (l : List α) : List α :=
  match get key (key a) l with
  | none => a :: l
  | some _ => set key (key a) a l

variable {key} {k k' : κ} {a b x : α} {l : List α}

/-- The head is found at its key. -/
theorem get_cons_self (h : key x = k) : get key k (x :: l) = some x := if_pos h

/-- A head with another key is passed. -/
theorem get_cons_ne (h : key x ≠ k) : get key k (x :: l) = get key k l := if_neg h

/-! ## What is found -/

/-- What is found is in the list, with that key. -/
theorem get_eq_some (h : get key k l = some a) : a ∈ l ∧ key a = k := by
  induction l with
  | nil => cases h
  | cons x xs ih =>
    by_cases hx : key x = k
    · rw [get_cons_self hx] at h
      obtain rfl := Option.some.inj h
      exact ⟨List.mem_cons_self, hx⟩
    · rw [get_cons_ne hx] at h
      exact ⟨List.mem_cons_of_mem x (ih h).1, (ih h).2⟩

/-- Nothing is found exactly where no element has the key. -/
theorem get_eq_none_iff : get key k l = none ↔ k ∉ l.map key := by
  induction l with
  | nil => exact ⟨fun _ => List.not_mem_nil, fun _ => rfl⟩
  | cons x xs ih =>
    by_cases hx : key x = k
    · rw [get_cons_self hx]
      simp [hx]
    · rw [get_cons_ne hx, ih, List.map_cons, List.mem_cons, not_or]
      exact ⟨fun h => ⟨Ne.symm hx, h⟩, fun h => h.2⟩

/-- With distinct keys, a record is found by its key. -/
theorem get_of_mem (hl : (l.map key).Nodup) (hx : x ∈ l) : get key (key x) l = some x := by
  induction l with
  | nil => exact absurd hx List.not_mem_nil
  | cons y ys ih =>
    rw [List.map_cons, List.nodup_cons] at hl
    rcases List.mem_cons.mp hx with rfl | hmem
    · exact get_cons_self rfl
    · have hne : key y ≠ key x := fun heq => hl.1 (heq ▸ List.mem_map_of_mem hmem)
      rw [get_cons_ne hne, ih hl.2 hmem]

/-- A map that keeps the keys commutes with finding. -/
theorem get_map {β : Type*} {f : α → β} {key' : β → κ} (hf : ∀ a, key' (f a) = key a) :
    get key' k (l.map f) = (get key k l).map f := by
  induction l with
  | nil => rfl
  | cons y ys ih =>
    by_cases hy : key y = k
    · rw [List.map_cons, get_cons_self hy, get_cons_self ((hf y).trans hy), Option.map_some]
    · rw [List.map_cons, get_cons_ne hy, get_cons_ne (hf y ▸ hy), ih]

/-! ## Overwriting -/

/-- Replacing keeps the keys. -/
theorem map_key_set (ha : key a = k) : (set key k a l).map key = l.map key := by
  induction l with
  | nil => rfl
  | cons x xs ih =>
    unfold set
    by_cases hx : key x = k
    · rw [if_pos hx, List.map_cons, List.map_cons, ha, hx]
    · rw [if_neg hx, List.map_cons, List.map_cons, ih]

/-- An overwrite that keeps a reading of the record it finds keeps the readings of the list. -/
theorem map_set {β : Type*} {f : α → β} (h : get key k l = some b) (hf : f a = f b) :
    (set key k a l).map f = l.map f := by
  induction l with
  | nil => rfl
  | cons x xs ih =>
    unfold set
    by_cases hx : key x = k
    · rw [get_cons_self hx] at h
      obtain rfl := Option.some.inj h
      rw [if_pos hx, List.map_cons, List.map_cons, hf]
    · rw [get_cons_ne hx] at h
      rw [if_neg hx, List.map_cons, List.map_cons, ih h]

/-- What was put in place of another is found. -/
theorem get_set_self (ha : key a = k) (h : get key k l = some b) :
    get key k (set key k a l) = some a := by
  induction l with
  | nil => cases h
  | cons x xs ih =>
    unfold set
    by_cases hx : key x = k
    · rw [if_pos hx]
      exact get_cons_self ha
    · rw [get_cons_ne hx] at h
      rw [if_neg hx, get_cons_ne hx]
      exact ih h

/-- The others are found as before. -/
theorem get_set_ne (ha : key a = k) (hk : k' ≠ k) : get key k' (set key k a l) = get key k' l := by
  induction l with
  | nil => rfl
  | cons x xs ih =>
    unfold set
    by_cases hx : key x = k
    · have hxk : key x ≠ k' := fun h => hk (h.symm.trans hx)
      have hak : key a ≠ k' := fun h => hk (h.symm.trans ha)
      rw [if_pos hx, get_cons_ne hak, get_cons_ne hxk]
    · rw [if_neg hx]
      unfold get
      rw [ih]

/-- A record behind an overwrite is the new one or an old one. -/
theorem eq_or_mem_of_mem_set (hx : x ∈ set key k a l) : x = a ∨ x ∈ l := by
  induction l with
  | nil => cases hx
  | cons y ys ih =>
    unfold set at hx
    by_cases hy : key y = k
    · rw [if_pos hy] at hx
      exact (List.mem_cons.mp hx).imp_right (List.mem_cons_of_mem y)
    · rw [if_neg hy] at hx
      rcases List.mem_cons.mp hx with rfl | hmem
      · exact Or.inr List.mem_cons_self
      · exact (ih hmem).imp_right (List.mem_cons_of_mem y)

/-- With distinct keys, an old one has another key. -/
theorem mem_set (hl : (l.map key).Nodup) (hx : x ∈ set key k a l) : x = a ∨ (x ∈ l ∧ key x ≠ k) := by
  induction l with
  | nil => cases hx
  | cons y ys ih =>
    rw [List.map_cons, List.nodup_cons] at hl
    unfold set at hx
    by_cases hy : key y = k
    · rw [if_pos hy] at hx
      rcases List.mem_cons.mp hx with rfl | hmem
      · exact Or.inl rfl
      · refine Or.inr ⟨List.mem_cons_of_mem y hmem, fun heq => hl.1 ?_⟩
        rw [hy, ← heq]
        exact List.mem_map_of_mem hmem
    · rw [if_neg hy] at hx
      rcases List.mem_cons.mp hx with rfl | hmem
      · exact Or.inr ⟨List.mem_cons_self, hy⟩
      · exact (ih hl.2 hmem).imp_right fun h => ⟨List.mem_cons_of_mem y h.1, h.2⟩

/-! ## Overwriting or adding -/

/-- A new key goes to the front. -/
theorem put_of_none (h : get key (key a) l = none) : put key a l = a :: l := by
  rw [put, h]

/-- A known key keeps its place. -/
theorem put_of_some (h : get key (key a) l = some b) : put key a l = set key (key a) a l := by
  rw [put, h]

/-- Keys stay different. -/
theorem nodup_put (hl : (l.map key).Nodup) : ((put key a l).map key).Nodup := by
  rcases hget : get key (key a) l with _ | b
  · rw [put_of_none hget, List.map_cons, List.nodup_cons]
    exact ⟨get_eq_none_iff.mp hget, hl⟩
  · rw [put_of_some hget, map_key_set rfl]
    exact hl

/-- What was put is found. -/
theorem get_put_self : get key (key a) (put key a l) = some a := by
  rcases hget : get key (key a) l with _ | b
  · rw [put_of_none hget]
    exact get_cons_self rfl
  · rw [put_of_some hget]
    exact get_set_self rfl hget

/-- The others are found as before. -/
theorem get_put_ne (hk : k ≠ key a) : get key k (put key a l) = get key k l := by
  rcases hget : get key (key a) l with _ | b
  · rw [put_of_none hget]
    exact get_cons_ne hk.symm
  · rw [put_of_some hget]
    exact get_set_ne rfl hk

/-- Only the element itself is added. -/
theorem eq_or_mem_of_mem_put (hx : x ∈ put key a l) : x = a ∨ x ∈ l := by
  rcases hget : get key (key a) l with _ | b
  · rw [put_of_none hget] at hx
    exact List.mem_cons.mp hx
  · rw [put_of_some hget] at hx
    exact eq_or_mem_of_mem_set hx

/-- Records put one after the other: each is a new one or an old one. -/
theorem mem_or_mem_of_mem_foldl_put {m : List α}
    (hx : x ∈ l.foldl (fun m a => put key a m) m) : x ∈ l ∨ x ∈ m := by
  induction l generalizing m with
  | nil => exact Or.inr hx
  | cons y ys ih =>
    rcases ih hx with hmem | hmem
    · exact Or.inl (List.mem_cons_of_mem y hmem)
    · rcases eq_or_mem_of_mem_put hmem with rfl | hold
      · exact Or.inl List.mem_cons_self
      · exact Or.inr hold

/-- Records with distinct keys, put one after the other, are all found. -/
theorem get_foldl_put {m : List α} (hl : (l.map key).Nodup) :
    get key k (l.foldl (fun m a => put key a m) m) = (get key k l).or (get key k m) := by
  induction l generalizing m with
  | nil => rfl
  | cons y ys ih =>
    rw [List.map_cons, List.nodup_cons] at hl
    rw [List.foldl_cons, ih hl.2]
    by_cases hy : key y = k
    · have hnone : get key k ys = none := get_eq_none_iff.mpr (hy ▸ hl.1)
      rw [get_cons_self hy, hnone, Option.none_or, Option.some_or, ← hy, get_put_self]
    · rw [get_cons_ne hy, get_put_ne (Ne.symm hy)]

/-! ## Unlinking -/

/-- Erasing only takes out. -/
theorem erase_sublist : (erase key k l).Sublist l := by
  induction l with
  | nil => exact List.Sublist.slnil
  | cons x xs ih =>
    unfold erase
    by_cases hx : key x = k
    · rw [if_pos hx]
      exact List.sublist_cons_self x xs
    · rw [if_neg hx]
      exact ih.cons_cons x

/-- Keys stay different. -/
theorem nodup_erase (hl : (l.map key).Nodup) : ((erase key k l).map key).Nodup :=
  hl.sublist (erase_sublist.map key)

/-- What was erased is not found. -/
theorem get_erase_self (hl : (l.map key).Nodup) : get key k (erase key k l) = none := by
  induction l with
  | nil => rfl
  | cons x xs ih =>
    rw [List.map_cons, List.nodup_cons] at hl
    unfold erase
    by_cases hx : key x = k
    · rw [if_pos hx, get_eq_none_iff, ← hx]
      exact hl.1
    · rw [if_neg hx, get_cons_ne hx]
      exact ih hl.2

/-- The others are found as before. -/
theorem get_erase_ne (hk : k' ≠ k) : get key k' (erase key k l) = get key k' l := by
  induction l with
  | nil => rfl
  | cons x xs ih =>
    unfold erase
    by_cases hx : key x = k
    · have hxk : key x ≠ k' := fun h => hk (h.symm.trans hx)
      rw [if_pos hx, get_cons_ne hxk]
    · rw [if_neg hx]
      unfold get
      rw [ih]

/-- The first record with a key is the first of all those with it. -/
theorem get_eq_head? : get key k l = (l.filter fun x => key x = k).head? := by
  induction l with
  | nil => rfl
  | cons x xs ih =>
    by_cases hx : key x = k
    · simp [get, hx]
    · simp [get, hx, ih]

/-- Unlinking takes the first of the records with the key, and no other. -/
theorem filter_erase : ((erase key k l).filter fun x => key x = k') =
    (l.filter fun x => key x = k').drop (if k = k' then 1 else 0) := by
  induction l with
  | nil => exact List.drop_nil.symm
  | cons x xs ih =>
    unfold erase
    by_cases hx : key x = k
    · by_cases hk : k = k'
      · simp [hx, hk]
      · simp [hx, hk]
    · by_cases hx' : key x = k'
      · have hk : k ≠ k' := fun h => hx (hx'.trans h.symm)
        simpa [hx, hx', hk, hk.symm] using ih
      · simpa [hx, hx'] using ih

/-- Overwriting a record changes nothing exactly if it writes what is there. -/
theorem set_eq_self_iff (h : get key k l = some b) : set key k a l = l ↔ a = b := by
  induction l with
  | nil => cases h
  | cons x xs ih =>
    unfold set
    by_cases hx : key x = k
    · rw [get_cons_self hx] at h
      rw [if_pos hx, List.cons.injEq, and_iff_left rfl, Option.some.inj h]
    · rw [get_cons_ne hx] at h
      rw [if_neg hx, List.cons.injEq, and_iff_right rfl, ih h]

/-! ## Conditions -/

/-- Unlinking the records that do not meet a condition. -/
theorem get_filter {p : α → Bool} (hl : (l.map key).Nodup) :
    get key k (l.filter p) = (get key k l).filter p := by
  induction l with
  | nil => rfl
  | cons x xs ih =>
    rw [List.map_cons, List.nodup_cons] at hl
    by_cases hx : key x = k
    · rw [get_cons_self hx]
      by_cases hp : p x = true
      · rw [List.filter_cons_of_pos hp, get_cons_self hx, Option.filter_some_pos hp]
      · rw [List.filter_cons_of_neg hp, Option.filter_some_neg (Bool.eq_false_iff.mpr hp),
          get_eq_none_iff, ← hx]
        intro hmem
        exact hl.1 ((List.filter_sublist.map key).subset hmem)
    · rw [get_cons_ne hx, ← ih hl.2]
      by_cases hp : p x = true
      · rw [List.filter_cons_of_pos hp, get_cons_ne hx]
      · rw [List.filter_cons_of_neg hp]

/-- Looking for a record with the key `k` that meets a condition. -/
theorem any_key {p : α → Bool} (hl : (l.map key).Nodup) :
    (l.any fun x => decide (k = key x) && p x) = (get key k l).any p := by
  induction l with
  | nil => rfl
  | cons x xs ih =>
    rw [List.map_cons, List.nodup_cons] at hl
    rw [List.any_cons, ih hl.2]
    by_cases hx : key x = k
    · have hnone : get key k xs = none := get_eq_none_iff.mpr (hx ▸ hl.1)
      rw [get_cons_self hx, hnone]
      simp [hx]
    · rw [get_cons_ne hx, decide_eq_false (Ne.symm hx), Bool.false_and, Bool.false_or]

/-! ## One record among others -/

section at_one

variable {pre post : List α}

omit [DecidableEq κ] in
/-- The others have other keys. -/
theorem ne_of_nodup_split (hl : ((pre ++ x :: post).map key).Nodup) :
    ∀ y ∈ pre ++ post, key y ≠ key x := by
  intro y hy heq
  rw [List.map_append, List.map_cons, List.nodup_middle, List.nodup_cons, ← List.map_append] at hl
  exact hl.1 (heq ▸ List.mem_map_of_mem hy)

/-- A map at a key is one at a place. -/
theorem map_at (hl : ((pre ++ x :: post).map key).Nodup) (f : α → α) :
    (pre ++ x :: post).map (fun y => if key y = key x then f y else y) = pre ++ f x :: post := by
  have hne := ne_of_nodup_split hl
  have hrest : ∀ ys : List α, (∀ y ∈ ys, y ∈ pre ++ post) →
      ys.map (fun y => if key y = key x then f y else y) = ys := fun ys hys =>
    (List.map_congr_left fun y hy => if_neg (hne y (hys y hy))).trans (List.map_id' ys)
  rw [List.map_append, List.map_cons, hrest pre fun y => List.mem_append_left _,
    hrest post fun y => List.mem_append_right _, if_pos rfl]

/-- Without its key, the element goes. -/
theorem filter_ne_at (hl : ((pre ++ x :: post).map key).Nodup) :
    (pre ++ x :: post).filter (fun y => key y ≠ key x) = pre ++ post := by
  have hne := ne_of_nodup_split hl
  rw [List.filter_append, List.filter_cons_of_neg (by simp), ← List.filter_append]
  exact List.filter_eq_self.mpr fun y hy => decide_eq_true (hne y hy)

/-- With its key, it alone stays. -/
theorem filter_eq_at (hl : ((pre ++ x :: post).map key).Nodup) :
    (pre ++ x :: post).filter (fun y => key y = key x) = [x] := by
  have hne := ne_of_nodup_split hl
  have hrest : ∀ ys : List α, (∀ y ∈ ys, y ∈ pre ++ post) →
      ys.filter (fun y => key y = key x) = [] := fun ys hys =>
    List.filter_eq_nil_iff.mpr fun y hy => by simpa using hne y (hys y hy)
  rw [List.filter_append, List.filter_cons_of_pos (by simp), hrest pre fun y => List.mem_append_left _,
    hrest post fun y => List.mem_append_right _, List.nil_append]

section taken_out

variable [DecidableEq α] {xs : List α}

omit [DecidableEq κ] in
/-- Taking out `x` leaves those of the others that are not in `xs`. -/
theorem filter_notMem_at (hl : ((pre ++ x :: post).map key).Nodup) (xs : List α) :
    (pre ++ post).filter (fun y => y ∉ xs) = (pre ++ x :: post).filter fun y => y ∉ x :: xs := by
  have hne : ∀ y ∈ pre ++ post, y ≠ x := fun y hy heq =>
    ne_of_nodup_split hl y hy (heq ▸ rfl)
  rw [List.filter_append, List.filter_append, List.filter_cons_of_neg (by simp)]
  refine congrArg₂ _ (List.filter_congr fun y hy => ?_) (List.filter_congr fun y hy => ?_)
  · simp [hne y (List.mem_append_left _ hy)]
  · simp [hne y (List.mem_append_right _ hy)]

omit [DecidableEq α] in
/-- The rest of a list without repetitions lies around its head. -/
theorem subset_at (hsub : x :: xs ⊆ pre ++ x :: post) (hnodup : (x :: xs).Nodup) :
    xs ⊆ pre ++ post := by
  intro y hy
  have hold := hsub (List.mem_cons_of_mem x hy)
  have hother : y ≠ x := fun heq => (List.nodup_cons.mp hnodup).1 (heq ▸ hy)
  rw [List.mem_append, List.mem_cons] at hold
  rw [List.mem_append]
  tauto

/-- What is not among those that meet a condition does not meet it. -/
theorem filter_notMem_filter (p : α → Prop) [DecidablePred p] :
    (l.filter fun y => y ∉ l.filter fun y => p y) = l.filter fun y => ¬ p y :=
  List.filter_congr fun y hy => by simp [hy]

end taken_out

end at_one

/-! ## A second list for what is taken out -/

section removed

variable {removed pre post : List α}

omit [DecidableEq κ] in
/-- One record is replaced or taken out, under its key. -/
theorem perm_splice (hkey : key a = key x) (dropped : Bool) :
    ((removed ++ (if dropped then [a] else []) ++
      (pre ++ (if dropped then [] else [a]) ++ post)).map key).Perm
      ((removed ++ (pre ++ x :: post)).map key) := by
  cases dropped with
  | false => simp [hkey]
  | true =>
    simp only [if_true, List.append_nil, List.map_append, List.map_cons, hkey, List.append_assoc,
      List.cons_append, List.nil_append]
    exact List.perm_middle.symm.append_left _

omit [DecidableEq κ] in
/-- The records that meet a condition are taken out, and keep their keys. -/
theorem perm_filter (p : α → Prop) [DecidablePred p] {f : α → α} (hf : ∀ y, key (f y) = key y) :
    ((removed ++ (l.filter fun y => p y).map f ++ l.filter fun y => ¬ p y).map key).Perm
      ((removed ++ l).map key) := by
  have hkeys : ((l.filter fun y => p y).map f).map key = (l.filter fun y => p y).map key := by
    rw [List.map_map]
    exact List.map_congr_left fun y _ => hf y
  have hboth := (List.filter_append_perm (fun y => decide (p y)) l).map key
  simp only [List.map_append, ← decide_not] at hboth
  rw [List.map_append, List.map_append, hkeys, List.map_append, List.append_assoc]
  exact hboth.append_left _

end removed

end GmvPjsip.Lib.Keyed
