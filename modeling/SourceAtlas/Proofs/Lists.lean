import Mathlib.Algebra.GroupWithZero.Nat
import Mathlib.Data.Finset.Card
import Mathlib.Data.List.Forall2

/-!
# Last matches, runs, groups and first occurrences

What is kept of a list of events is often only the last event of a key, the events of each key
taken together, or the keys where they first occur. The last match is found from the end
(`find?_reverse_eq_some_iff`), grouping by a key only reorders a list (`perm_flatMap_filter`) and
sorts it stably if the keys are in order (`mergeSort_eq_flatMap_filter`), and the place of a first
occurrence counts the different values before it (`idxOf_eraseDups`). A list that starts with a run
of members of a class is cut behind that run (`takeWhile_append_of_stop`), and in one way only
(`append_inj_of_stop`). What is selected from two lists that are related member by member is alike
(`filterMap_filter_of_forall₂`).
-/

namespace SourceAtlas

variable {α β : Type}

theorem find?_reverse_eq_some_iff {p : α → Bool} {xs : List α} {x : α} :
  xs.reverse.find? p = some x
    ↔ ∃ before after, xs = before ++ x :: after ∧ p x = true ∧ ∀ y ∈ after, p y = false
  := by
  simp only [List.find?_eq_some_iff_append, Bool.not_eq_true']
  constructor
  · rintro ⟨found, after, before, split, later⟩
    refine ⟨before.reverse, after.reverse, ?_, found, ?_⟩
    · rw [← List.reverse_reverse xs, split]
      simp
    · intro y hy
      apply later y (List.mem_reverse.mp hy)
  · rintro ⟨before, after, rfl, found, later⟩
    refine ⟨found, after.reverse, before.reverse, by simp, ?_⟩
    intro y hy
    apply later y (List.mem_reverse.mp hy)

theorem map_eq_of_map_eq {γ : Type} {f : α → β} {g : α → γ}
    (imp : ∀ a b, f a = f b → g a = g b) {xs ys : List α} (h : xs.map f = ys.map f) :
  xs.map g = ys.map g
  := by
  induction xs generalizing ys with
  | nil =>
    obtain rfl := List.map_eq_nil_iff.mp h.symm
    rfl
  | cons x xs ih =>
    obtain ⟨y, ys, rfl, first, rest⟩ := List.map_eq_cons_iff.mp h.symm
    rw [List.map_cons, List.map_cons, imp y x first, ih rest.symm]

/-! ### Related lists -/

theorem any_eq_of_forall₂ {R : α → β → Prop} {p : α → Bool} {q : β → Bool}
    (alike : ∀ x y, R x y → p x = q y) {xs : List α} {ys : List β} (h : List.Forall₂ R xs ys) :
  xs.any p = ys.any q
  := by
  induction h with
  | nil => rfl
  | cons related _ ih => rw [List.any_cons, List.any_cons, alike _ _ related, ih]

theorem filterMap_filter_of_forall₂ {γ : Type} {R : α → β → Prop} {p : α → Bool} {q : β → Bool}
    {f : α → Option γ} {g : β → γ} (alike : ∀ x y, R x y → p x = q y)
    (values : ∀ x y, R x y → f x = some (g y)) {xs : List α} {ys : List β}
    (h : List.Forall₂ R xs ys) :
  (xs.filter p).filterMap f = (ys.filter q).map g
  := by
  induction h with
  | nil => rfl
  | @cons x y xs ys related _ ih =>
    rw [List.filter_cons, List.filter_cons, alike x y related]
    split
    · rw [List.filterMap_cons_some (values x y related), List.map_cons, ih]
    · apply ih

/-! ### Fields -/

theorem infix_intercalate {sep field : List α} {fields : List (List α)}
    (h : field ∈ fields) :
  field <:+: sep.intercalate fields
  := by
  induction fields with
  | nil => cases h
  | cons first fields ih =>
    cases fields with
    | nil =>
      obtain rfl := List.mem_singleton.mp h
      rw [List.intercalate_singleton]
    | cons second fields =>
      rw [List.intercalate_cons_cons, List.append_assoc]
      obtain rfl | later := List.mem_cons.mp h
      · apply (List.prefix_append field _).isInfix
      · apply (ih later).trans
        apply ((List.suffix_append sep _).trans (List.suffix_append first _)).isInfix

theorem length_splitOn [DecidableEq α] (sep : α) (xs : List α) :
  (xs.splitOn sep).length = xs.count sep + 1
  := by
  induction xs with
  | nil => rfl
  | cons x xs ih =>
    rw [List.splitOn_cons_eq_if_modifyHead, List.count_cons]
    split
    · rw [List.length_cons, ih]
    · rw [List.length_modifyHead, ih, Nat.add_zero]

/-! ### Runs -/

/-- A run reaches up to what is first not in `p`. -/
theorem takeWhile_append_of_stop {p : α → Bool} {xs rest : List α} (run : ∀ x ∈ xs, p x = true)
    (stop : ∀ x ∈ rest.head?, p x = false) :
  (xs ++ rest).takeWhile p = xs
  := by
  rw [List.takeWhile_append_of_pos run]
  cases rest with
  | nil => simp
  | cons x rest => simp [stop x rfl]

/-- Two lists that are equal are cut at the same place by what is first not in `p`. -/
theorem append_inj_of_stop {p : α → Prop} {xs ys rest rest' : List α}
    (hx : ∀ x ∈ xs, p x) (hy : ∀ y ∈ ys, p y) (stop : ∀ x ∈ rest.head?, ¬ p x)
    (stop' : ∀ x ∈ rest'.head?, ¬ p x) (h : xs ++ rest = ys ++ rest') :
  xs = ys ∧ rest = rest'
  := by
  induction xs generalizing ys with
  | nil =>
    cases ys with
    | nil => exact ⟨rfl, h⟩
    | cons y ys =>
      obtain rfl : rest = y :: (ys ++ rest') := h
      exact absurd (hy y List.mem_cons_self) (stop y rfl)
  | cons x xs ih =>
    cases ys with
    | nil =>
      obtain rfl : x :: (xs ++ rest) = rest' := h
      exact absurd (hx x List.mem_cons_self) (stop' x rfl)
    | cons y ys =>
      obtain ⟨rfl, later⟩ := List.cons.inj h
      obtain ⟨rfl, same⟩ := ih (fun z hz => hx z (List.mem_cons_of_mem x hz))
        (fun z hz => hy z (List.mem_cons_of_mem x hz)) later
      exact ⟨rfl, same⟩

/-! ### Groups -/

section Groups

variable [BEq β] [LawfulBEq β] (key : α → β) {keys : List β} {xs : List α}

/-- Taken together by their keys, the members of a list are neither lost nor repeated. -/
theorem perm_flatMap_filter (distinct : keys.Nodup) (covered : ∀ x ∈ xs, key x ∈ keys) :
  (keys.flatMap fun k => xs.filter (key · == k)).Perm xs
  := by
  induction keys generalizing xs with
  | nil =>
    obtain rfl : xs = [] := List.eq_nil_iff_forall_not_mem.mpr fun x hx => by
      simpa using covered x hx
    apply List.Perm.refl
  | cons k keys ih =>
    obtain ⟨new, distinct⟩ := List.nodup_cons.mp distinct
    have others : (keys.flatMap fun k' => xs.filter (key · == k'))
        = keys.flatMap fun k' => (xs.filter fun x => !key x == k).filter (key · == k') := by
      apply List.flatMap_congr
      intro k' hk'
      rw [List.filter_filter]
      apply List.filter_congr
      intro x _
      by_cases same : key x = k'
      · have ne : k' ≠ k := by
          rintro rfl
          exact new hk'
        simp [same, ne]
      · simp [same]
    have rest : ∀ x ∈ xs.filter fun x => !key x == k, key x ∈ keys := by
      intro x hx
      obtain ⟨hx, ne⟩ := List.mem_filter.mp hx
      apply List.mem_of_ne_of_mem (by simpa using ne) (covered x hx)
    rw [List.flatMap_cons, others]
    apply List.Perm.trans _ (List.filter_append_perm (key · == k) xs)
    apply List.Perm.append_left _ (ih distinct rest)

/-- The sizes of the groups add up to the length of the list. -/
theorem sum_length_filter (distinct : keys.Nodup) (covered : ∀ x ∈ xs, key x ∈ keys) :
  (keys.map fun k => (xs.filter (key · == k)).length).sum = xs.length
  := by
  rw [← List.length_flatMap]
  apply (perm_flatMap_filter key distinct covered).length_eq

/-- A part of a list that keeps its order is found again in any reordering of the list. -/
theorem filter_eq_of_perm {p : α → Bool} {xs ys : List α} (perm : ys.Perm xs)
    (kept : (xs.filter p).Sublist ys) :
  ys.filter p = xs.filter p
  := by
  have within : (xs.filter p).Sublist (ys.filter p) := by
    simpa using kept.filter p
  apply (within.eq_of_length (perm.filter p).length_eq.symm).symm

variable {le : β → β → Bool}

/-- Two lists in the order of their keys are equal if they have the same members of each key in the
same order. -/
theorem eq_of_filter_eq (antisymm : ∀ a b, le a b = true → le b a = true → a = b)
    {xs ys : List α} (hx : xs.Pairwise fun x y => le (key x) (key y) = true)
    (hy : ys.Pairwise fun x y => le (key x) (key y) = true)
    (same : ∀ k, xs.filter (key · == k) = ys.filter (key · == k)) :
  xs = ys
  := by
  induction xs generalizing ys with
  | nil =>
    symm
    apply List.eq_nil_iff_forall_not_mem.mpr
    intro y hy
    have listed : y ∈ ys.filter (key · == key y) := by simp [hy]
    rw [← same] at listed
    cases listed
  | cons x xs ih =>
    obtain ⟨above, later⟩ := List.pairwise_cons.mp hx
    cases ys with
    | nil => simpa using same (key x)
    | cons y ys =>
      obtain ⟨above', later'⟩ := List.pairwise_cons.mp hy
      have first : key x = key y := by
        by_contra ne
        have here : y ∈ (x :: xs).filter (key · == key y) := by simp [same]
        have there : x ∈ (y :: ys).filter (key · == key x) := by simp [← same]
        have hyx : y ∈ xs := by simpa [ne] using here
        have hxy : x ∈ ys := by simpa [Ne.symm ne] using there
        apply ne (antisymm _ _ (above y hyx) (above' x hxy))
      obtain ⟨rfl, -⟩ : x = y ∧ _ := by simpa [first] using same (key y)
      congr 1
      apply ih later later'
      intro k
      have rest := same k
      rw [List.filter_cons, List.filter_cons] at rest
      split at rest
      · apply (List.cons.inj rest).2
      · apply rest

theorem pairwise_filter_key (refl : ∀ a, le a a = true) (k : β) :
  (xs.filter (key · == k)).Pairwise fun x y => le (key x) (key y) = true
  := by
  apply List.pairwise_of_forall_mem_list
  intro x hx y hy
  simp only [List.mem_filter, beq_iff_eq] at hx hy
  rw [hx.2, hy.2]
  apply refl

/-- Taken together by their keys, and the keys in order, the members of a list are in the order of
their keys. -/
theorem pairwise_flatMap_filter (refl : ∀ a, le a a = true)
    (ordered : keys.Pairwise fun a b => le a b = true) :
  (keys.flatMap fun k => xs.filter (key · == k)).Pairwise fun x y => le (key x) (key y) = true
  := by
  apply List.pairwise_flatMap.mpr
  constructor
  · intro k _
    apply pairwise_filter_key key refl
  · apply ordered.imp
    intro a b before x hx y hy
    simp only [List.mem_filter, beq_iff_eq] at hx hy
    rw [hx.2, hy.2]
    apply before

theorem filter_sublist_flatMap (covered : ∀ x ∈ xs, key x ∈ keys) (k : β) :
  (xs.filter (key · == k)).Sublist (keys.flatMap fun k' => xs.filter (key · == k'))
  := by
  by_cases known : k ∈ keys
  · rw [List.flatMap_def]
    apply List.sublist_flatten_of_mem (List.mem_map_of_mem known)
  · have none : xs.filter (key · == k) = [] := by
      apply List.filter_eq_nil_iff.mpr
      intro x hx found
      apply known
      rw [← beq_iff_eq.mp found]
      apply covered x hx
    rw [none]
    apply List.nil_sublist

/-- Taken together by their keys, and the keys in order, the members of a list are sorted by their
keys, and members of one key keep their order. -/
theorem mergeSort_eq_flatMap_filter (trans : ∀ a b c, le a b = true → le b c = true → le a c = true)
    (total : ∀ a b, (le a b || le b a) = true)
    (antisymm : ∀ a b, le a b = true → le b a = true → a = b)
    (ordered : keys.Pairwise fun a b => le a b = true) (distinct : keys.Nodup)
    (covered : ∀ x ∈ xs, key x ∈ keys) :
  xs.mergeSort (fun x y => le (key x) (key y)) = keys.flatMap fun k => xs.filter (key · == k)
  := by
  have refl (a : β) : le a a = true := by simpa using total a a
  have byKeys (x y z : α) := trans (key x) (key y) (key z)
  have someWay (x y : α) := total (key x) (key y)
  apply eq_of_filter_eq key antisymm
  · apply List.pairwise_mergeSort byKeys someWay
  · apply pairwise_flatMap_filter key refl ordered
  · intro k
    trans xs.filter (key · == k)
    · apply filter_eq_of_perm (List.mergeSort_perm _ _)
      apply List.sublist_mergeSort byKeys someWay (pairwise_filter_key key refl k)
      apply List.filter_sublist
    · symm
      apply filter_eq_of_perm (perm_flatMap_filter key distinct covered)
      apply filter_sublist_flatMap key covered

end Groups

/-! ### First occurrences -/

section FirstOccurrences

variable [DecidableEq α]

theorem eraseDups_concat (xs : List α) (x : α) :
  (xs ++ [x]).eraseDups = if x ∈ xs then xs.eraseDups else xs.eraseDups ++ [x]
  := by
  by_cases known : x ∈ xs
  · simp [List.eraseDups_append, List.removeAll, known]
  · simp [List.eraseDups_append, List.removeAll, known, List.eraseDups_cons]

theorem nodup_eraseDups (xs : List α) :
  xs.eraseDups.Nodup
  := by
  induction xs using List.reverseRecOn with
  | nil => simp
  | append_singleton xs x ih =>
    rw [eraseDups_concat]
    split
    · apply ih
    · rename_i new
      simp only [← List.concat_eq_append]
      apply ih.concat (mt List.mem_eraseDups.mp new)

theorem length_eraseDups (xs : List α) :
  xs.eraseDups.length = xs.toFinset.card
  := by
  rw [← List.toFinset_card_of_nodup (nodup_eraseDups xs)]
  congr 1
  ext x
  simp

theorem idxOf_eraseDups_append {before : List α} {x : α} (missing : x ∉ before) (after : List α) :
  (before ++ x :: after).eraseDups.idxOf x = before.toFinset.card
  := by
  have kept : (x :: after).removeAll before = x :: after.removeAll before := by
    simp [List.removeAll, missing]
  rw [List.eraseDups_append, kept, List.eraseDups_cons, List.idxOf_append,
    if_neg (mt List.mem_eraseDups.mp missing), List.idxOf_cons_self, Nat.zero_add, length_eraseDups]

/-- In front of the first occurrence of a value stand the different values before it. -/
theorem idxOf_eraseDups {xs : List α} {x : α} (h : x ∈ xs) :
  xs.eraseDups.idxOf x = (xs.takeWhile (· ≠ x)).toFinset.card
  := by
  obtain ⟨before, after, rfl, missing⟩ := List.eq_append_cons_of_mem h
  rw [idxOf_eraseDups_append missing, takeWhile_append_of_stop]
  · intro y hy
    rw [decide_eq_true_eq]
    rintro rfl
    exact missing hy
  · simp

end FirstOccurrences

end SourceAtlas
