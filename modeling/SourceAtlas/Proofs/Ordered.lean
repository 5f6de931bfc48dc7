import SourceAtlas.Declaration
import SourceAtlas.Ordered

/-!
# Strictly increasing lists as finite sets

Over a lawful linear order, `Ordered.insert`, `Ordered.ofList` and `Ordered.union` do what
the operations of the same names do on finite sets, and their results are strictly
increasing. A strictly increasing list has no repetitions and is determined by its members,
so what is listed in this way does not depend on the order in which it was found, and the search
by halves finds its members (`search_iff`). Where there are no repetitions, `Ordered.sort` gives
the same list.

The edges of a graph are lawfully ordered by source, target and kind.
-/

namespace SourceAtlas

open Std

namespace Ordered

variable {α : Type} [Ord α]

theorem ofList_eq_union (xs : List α) :
  ofList xs = union xs []
  := rfl

/-! ### Members -/

section Members

variable [LawfulEqOrd α]

@[simp]
theorem mem_insert {x y : α} {xs : List α} :
  y ∈ insert x xs ↔ y = x ∨ y ∈ xs
  := by
  induction xs with
  | nil => simp [insert]
  | cons z zs ih =>
    rw [insert]
    split
    · simp
    · rename_i same
      rw [LawfulEqOrd.compare_eq_iff_eq] at same
      simp [same]
    · simp only [List.mem_cons, ih]
      apply or_left_comm

@[simp]
theorem mem_union {x : α} {xs ys : List α} :
  x ∈ union xs ys ↔ x ∈ xs ∨ x ∈ ys
  := by
  induction xs with
  | nil => simp [union]
  | cons z zs ih =>
    rw [union] at ih ⊢
    rw [List.foldr_cons, mem_insert, ih, List.mem_cons, or_assoc]

@[simp]
theorem mem_ofList {x : α} {xs : List α} :
  x ∈ ofList xs ↔ x ∈ xs
  := by
  rw [ofList_eq_union, mem_union]
  simp

end Members

/-! ### Increasing lists are determined by their members -/

section Extensionality

variable [TransOrd α]

theorem Increasing.nodup {xs : List α} (h : Increasing xs) :
  xs.Nodup
  := by
  apply List.Pairwise.imp _ h
  rintro x _ before rfl
  simp [compare_self] at before

/-- Two increasing lists with the same members are equal. -/
theorem Increasing.ext {xs ys : List α} (hx : Increasing xs) (hy : Increasing ys)
    (same : ∀ x, x ∈ xs ↔ x ∈ ys) :
  xs = ys
  := by
  have perm : xs.Perm ys := (List.perm_ext_iff_of_nodup hx.nodup hy.nodup).mpr same
  apply List.Perm.eq_of_pairwise _ hx hy perm
  intro x y _ _ before after
  exact absurd after (OrientedCmp.not_lt_of_lt before)

variable [LawfulEqOrd α]

/-- The listing of a collection depends only on which values it holds. -/
theorem ofList_congr {xs ys : List α} (same : ∀ x, x ∈ xs ↔ x ∈ ys) :
  ofList xs = ofList ys
  := by
  apply Increasing.ext (increasing_ofList xs) (increasing_ofList ys)
  intro x
  rw [mem_ofList, mem_ofList, same x]

/-- Without repetitions, sorting loses nothing. -/
theorem ofList_perm {xs : List α} (h : xs.Nodup) :
  (ofList xs).Perm xs
  := by
  apply (List.perm_ext_iff_of_nodup (increasing_ofList xs).nodup h).mpr
  intro x
  apply mem_ofList

end Extensionality

/-! ### Searching -/

section Searching

/-- In an increasing list, what stands before a member is below it, and what stands behind it is
above it. -/
theorem Increasing.around {xs above : List α} {y : α} {n : Nat} (h : Increasing xs)
    (half : xs.drop n = y :: above) :
  (Increasing (xs.take n) ∧ ∀ z ∈ xs.take n, compare z y = .lt)
    ∧ Increasing above ∧ ∀ z ∈ above, compare y z = .lt
  := by
  rw [← List.take_append_drop n xs, half] at h
  obtain ⟨lower, upper, before⟩ := List.pairwise_append.mp h
  obtain ⟨after, upper⟩ := List.pairwise_cons.mp upper
  exact ⟨⟨lower, fun z hz => before z hz y List.mem_cons_self⟩, upper, after⟩

theorem mem_iff_of_drop_eq_cons {β : Type} {xs above : List β} {x y : β} {n : Nat}
    (half : xs.drop n = y :: above) :
  x ∈ xs ↔ x ∈ xs.take n ∨ x = y ∨ x ∈ above
  := by
  rw [← List.mem_cons, ← half, ← List.mem_append, List.take_append_drop]

variable [TransOrd α] [LawfulEqOrd α]

/-- The search in an increasing list finds its members and nothing else. -/
theorem search_iff {x : α} {xs : List α} (h : Increasing xs) :
  search x xs = true ↔ x ∈ xs
  := by
  fun_induction search x xs with
  | case1 xs none =>
    have short := List.drop_eq_nil_iff.mp none
    obtain rfl : xs = [] := List.eq_nil_of_length_eq_zero (by omega)
    simp
  | case2 xs y above half before ih =>
    obtain ⟨⟨lower, -⟩, -, after⟩ := h.around half
    rw [ih lower, mem_iff_of_drop_eq_cons half, iff_self_or]
    rintro (rfl | hx)
    · simp [compare_self] at before
    · exact absurd (after x hx) (OrientedCmp.not_lt_of_lt before)
  | case3 xs y above half same =>
    obtain rfl := LawfulEqOrd.eq_of_compare same
    rw [mem_iff_of_drop_eq_cons half]
    simp
  | case4 xs y above half after ih =>
    obtain ⟨⟨-, before⟩, upper, -⟩ := h.around half
    rw [ih upper, mem_iff_of_drop_eq_cons half, ← or_assoc, iff_or_self]
    rintro (hx | rfl)
    · simp [before x hx] at after
    · simp [compare_self] at after

end Searching

/-! ### Sorting -/

section Sorting

@[simp]
theorem mem_sort {x : α} {xs : List α} :
  x ∈ sort xs ↔ x ∈ xs
  := List.mem_mergeSort

@[simp]
theorem length_sort (xs : List α) :
  (sort xs).length = xs.length
  := List.length_mergeSort xs

variable [TransOrd α] [LawfulEqOrd α]

/-- Sorting puts a list without repetitions into strict order. -/
theorem increasing_sort {xs : List α} (h : xs.Nodup) :
  Increasing (sort xs)
  := by
  have sorted : (sort xs).Pairwise fun x y => (compare x y).isLE = true := by
    apply List.pairwise_mergeSort
    · intro x y z
      apply TransOrd.isLE_trans
    · intro x y
      cases below : compare x y with
      | lt => rfl
      | eq => rfl
      | gt => simp [OrientedCmp.lt_of_gt below]
  have distinct : (sort xs).Nodup := (List.mergeSort_perm xs _).nodup_iff.mpr h
  apply (sorted.and distinct).imp
  rintro x y ⟨below, ne⟩
  obtain before | same := Ordering.isLE_iff_eq_lt_or_eq_eq.mp below
  · apply before
  · exact absurd (LawfulEqOrd.eq_of_compare same) ne

/-- Without repetitions there is nothing to merge. -/
theorem ofList_eq_sort {xs : List α} (h : xs.Nodup) :
  ofList xs = sort xs
  := by
  apply Increasing.ext (increasing_ofList xs) (increasing_sort h)
  intro x
  rw [mem_ofList, mem_sort]

end Sorting

/-! ### Keys -/

section Keys

/-- Nothing is lost where a value is added to values that it does not compare equal to. -/
theorem perm_insert {x : α} {xs : List α} (fresh : ∀ y ∈ xs, compare x y ≠ .eq) :
  (insert x xs).Perm (x :: xs)
  := by
  induction xs with
  | nil => apply List.Perm.refl
  | cons y ys ih =>
    obtain ⟨ne, fresh⟩ := List.forall_mem_cons.mp fresh
    rw [insert]
    split
    · apply List.Perm.refl
    · contradiction
    · apply ((ih fresh).cons y).trans (List.Perm.swap x y ys)

/-- Nothing is lost of a list in which no two values compare equal. -/
theorem ofList_perm_of_pairwise {xs : List α} (distinct : xs.Pairwise fun x y => compare x y ≠ .eq) :
  (ofList xs).Perm xs
  := by
  induction xs with
  | nil => apply List.Perm.refl
  | cons x xs ih =>
    obtain ⟨fresh, distinct⟩ := List.pairwise_cons.mp distinct
    apply (perm_insert fun y hy => fresh y (mem_of_mem_ofList hy)).trans
    apply (ih distinct).cons

variable {β : Type} [Ord β] {key : α → β}

theorem map_insert (same : ∀ x y, compare x y = compare (key x) (key y)) (x : α) (xs : List α) :
  (insert x xs).map key = insert (key x) (xs.map key)
  := by
  induction xs with
  | nil => rfl
  | cons y ys ih =>
    rw [List.map_cons, insert, insert, ← same x y]
    cases compare x y with
    | lt => rfl
    | eq => rfl
    | gt => simp only [List.map_cons, ih]

/-- Values that are ordered by a key are listed in the order of their keys. -/
theorem map_ofList (same : ∀ x y, compare x y = compare (key x) (key y)) (xs : List α) :
  (ofList xs).map key = ofList (xs.map key)
  := by
  induction xs with
  | nil => rfl
  | cons x xs ih =>
    rw [ofList, ofList] at ih
    rw [List.map_cons, ofList, ofList, List.foldr_cons, List.foldr_cons, map_insert same, ih]

end Keys

end Ordered

/-! ### The order of edges -/

theorem RelationKind.rank_injective :
  Function.Injective RelationKind.rank
  := by
  intro a b h
  cases a <;> cases b <;> simp_all [RelationKind.rank]

instance : TransOrd RelationKind :=
  inferInstanceAs (TransCmp (compareOn RelationKind.rank))

instance : LawfulEqOrd RelationKind where
  compare_self := ReflCmp.compare_self
  eq_of_compare h := RelationKind.rank_injective (LawfulEqOrd.eq_of_compare h)

instance : TransOrd Edge :=
  inferInstanceAs (TransCmp (compareLex
    (compareLex (compareOn Edge.source) (compareOn Edge.target)) (compareOn Edge.kind)))

instance : LawfulEqOrd Edge where
  compare_self := ReflCmp.compare_self
  eq_of_compare := by
    rintro ⟨source, target, kind⟩ ⟨source', target', kind'⟩ h
    obtain ⟨ends, kinds⟩ := Ordering.then_eq_eq.mp h
    obtain ⟨sources, targets⟩ := Ordering.then_eq_eq.mp ends
    obtain rfl := LawfulEqOrd.eq_of_compare sources
    obtain rfl := LawfulEqOrd.eq_of_compare targets
    obtain rfl := LawfulEqOrd.eq_of_compare kinds
    rfl

/-- The first difference between two edges decides which of them comes first. -/
theorem Edge.compare_eq_lt {e e' : Edge} :
  compare e e' = .lt
    ↔ compare e.source e'.source = .lt
      ∨ (e.source = e'.source ∧ (compare e.target e'.target = .lt
        ∨ (e.target = e'.target ∧ compare e.kind e'.kind = .lt)))
  := by
  have lexicographic : compare e e' = (compare e.source e'.source).then
      ((compare e.target e'.target).then (compare e.kind e'.kind)) := Ordering.then_assoc ..
  rw [lexicographic, Ordering.then_eq_lt, Ordering.then_eq_lt, LawfulEqOrd.compare_eq_iff_eq,
    LawfulEqOrd.compare_eq_iff_eq]

end SourceAtlas
