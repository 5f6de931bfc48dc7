/-!
# Strictly increasing lists

A finite set of values with a linear order is kept as the strictly increasing list of its
members. Every listing that the program prints in sorted order without repetitions is such a
list, and membership is decided by a binary search.
-/

namespace SourceAtlas.Ordered

open Std

variable {α : Type}

/-- The list with `x` added at its place, unless it is there already. -/
def insert [Ord α] (x : α) : List α → List α
  | [] => [x]
  | y :: ys =>
    match compare x y with
    | .lt => x :: y :: ys
    | .eq => y :: ys
    | .gt => y :: insert x ys

/-- The members of a list in increasing order, each once. -/
def ofList [Ord α] (xs : List α) : List α :=
  xs.foldr insert []

theorem length_insert [Ord α] (x : α) (xs : List α) :
  (insert x xs).length ≤ xs.length + 1
  := by
  induction xs with
  | nil => simp [insert]
  | cons y ys ih =>
    unfold insert
    split <;> simp only [List.length_cons] <;> omega

/-- There are no more members than there are places in the list. -/
theorem length_ofList [Ord α] (xs : List α) :
  (ofList xs).length ≤ xs.length
  := by
  induction xs with
  | nil => simp [ofList]
  | cons x xs ih =>
    have := length_insert x (ofList xs)
    simp only [ofList, List.foldr_cons, List.length_cons] at this ih ⊢
    omega

theorem mem_of_mem_insert [Ord α] {x y : α} {xs : List α} (h : y ∈ insert x xs) :
  y = x ∨ y ∈ xs
  := by
  induction xs with
  | nil => simpa [insert] using h
  | cons z zs ih =>
    unfold insert at h
    split at h
    · simpa using h
    · apply Or.inr h
    · obtain rfl | h := List.mem_cons.mp h
      · apply Or.inr List.mem_cons_self
      · obtain rfl | later := ih h
        · apply Or.inl rfl
        · apply Or.inr (List.mem_cons_of_mem z later)

theorem mem_of_mem_ofList [Ord α] {x : α} {xs : List α} (h : x ∈ ofList xs) :
  x ∈ xs
  := by
  induction xs with
  | nil => exact h
  | cons y ys ih =>
    obtain rfl | h := mem_of_mem_insert h
    · apply List.mem_cons_self
    · apply List.mem_cons_of_mem y (ih h)

/-- The members of either list in increasing order, each once. -/
def union [Ord α] (xs ys : List α) : List α :=
  xs.foldr insert ys

/-- Every member comes strictly before all later ones. -/
def Increasing [Ord α] (xs : List α) : Prop :=
  xs.Pairwise fun x y => compare x y = .lt

instance [Ord α] (xs : List α) : Decidable (Increasing xs) :=
  inferInstanceAs (Decidable (xs.Pairwise _))

theorem increasing_insert [Ord α] [TransOrd α] {xs : List α} (h : Increasing xs) (x : α) :
  Increasing (insert x xs)
  := by
  induction xs with
  | nil => simp [Increasing, insert]
  | cons y ys ih =>
    obtain ⟨above, rest⟩ := List.pairwise_cons.mp h
    rw [insert]
    split
    · rename_i before
      apply List.pairwise_cons.mpr
      constructor
      · intro z hz
        obtain rfl | hz := List.mem_cons.mp hz
        · apply before
        · apply TransCmp.lt_trans before (above z hz)
      · apply h
    · apply h
    · rename_i after
      apply List.pairwise_cons.mpr
      constructor
      · intro z hz
        obtain rfl | hz := mem_of_mem_insert hz
        · apply OrientedCmp.lt_of_gt after
        · apply above z hz
      · apply ih rest

theorem increasing_union [Ord α] [TransOrd α] {ys : List α} (h : Increasing ys) (xs : List α) :
  Increasing (union xs ys)
  := by
  induction xs with
  | nil => apply h
  | cons x xs ih => apply increasing_insert ih

theorem increasing_ofList [Ord α] [TransOrd α] (xs : List α) :
  Increasing (ofList xs)
  := increasing_union List.Pairwise.nil xs

/-- Looks for `x` in an increasing list: the member in the middle tells in which half to go on. -/
def search [Ord α] (x : α) (xs : List α) : Bool :=
  match _ : xs.drop (xs.length / 2) with
  | [] => false
  | y :: above =>
    match compare x y with
    | .lt => search x (xs.take (xs.length / 2))
    | .eq => true
    | .gt => search x above
termination_by xs.length
decreasing_by
  all_goals
    rename_i split
    have := congrArg List.length split
    simp only [List.length_drop, List.length_cons, List.length_take] at this ⊢
    omega

/-- The list in increasing order, with its repetitions. -/
def sort [Ord α] (xs : List α) : List α :=
  xs.mergeSort fun x y => (compare x y).isLE

end SourceAtlas.Ordered
