import SourceAtlas.Focus
import SourceAtlas.Proofs.Ordered

/-!
# Focused neighbourhoods are balls

A relation leads from its source to its target, and back to its source from its target and
from every identity that ends with the target as it is written. The members that
`Focus.expand` finds in a number of rounds are the identities at the end of the chains of
at most that many steps from the seed (`mem_expand`), although the rounds work on snapshots
and stop early. Nothing in the outcome depends on the order or the multiplicity of the
relations (`expand_congr`).
-/

namespace SourceAtlas

open Ordered (Increasing)

/-- The relation justifies a step from `x` to `z`: to its target from its source, or to its
source from what it points at. -/
def FocusRelation.Leads (r : FocusRelation) (x z : String) : Prop :=
  (r.source = x ∧ z = r.target)
    ∨ (z = r.source ∧ (r.target = x ∨ ∃ name, r.written = some name ∧ name.toList <:+ x.toList))

/-- A relation points into the members if it leads from one of them to its source. -/
theorem FocusRelation.pointsInto_iff {r : FocusRelation} {members : List String} :
  r.pointsInto members = true ↔ ∃ x ∈ members,
    r.target = x ∨ ∃ name, r.written = some name ∧ name.toList <:+ x.toList
  := by
  rw [pointsInto, Bool.or_eq_true, List.contains_iff_mem]
  cases written : r.written with
  | none => simp
  | some name =>
    simp only [List.any_eq_true, List.isSuffixOf_iff_suffix, Option.some.injEq,
      exists_eq_left']
    constructor
    · rintro (known | ⟨x, hx, ends⟩)
      · exact ⟨r.target, known, .inl rfl⟩
      · exact ⟨x, hx, .inr ends⟩
    · rintro ⟨x, hx, rfl | ends⟩
      · apply Or.inl hx
      · exact .inr ⟨x, hx, ends⟩

theorem FocusRelation.mem_adds {r : FocusRelation} {members : List String} {z : String} :
  z ∈ r.adds members ↔ z ∉ members ∧ ∃ x ∈ members, r.Leads x z
  := by
  simp only [adds, List.mem_append, List.mem_ite_nil_right, Bool.and_eq_true,
    Bool.not_eq_true', List.contains_eq_mem, decide_eq_true_eq, decide_eq_false_iff_not,
    List.mem_singleton, pointsInto_iff]
  constructor
  · rintro (⟨⟨source, fresh⟩, rfl⟩ | ⟨⟨⟨x, hx, points⟩, fresh⟩, rfl⟩)
    · exact ⟨fresh, r.source, source, .inl ⟨rfl, rfl⟩⟩
    · exact ⟨fresh, x, hx, .inr ⟨rfl, points⟩⟩
  · rintro ⟨fresh, x, hx, ⟨rfl, rfl⟩ | ⟨rfl, points⟩⟩
    · exact .inl ⟨⟨hx, fresh⟩, rfl⟩
    · exact .inr ⟨⟨⟨x, hx, points⟩, fresh⟩, rfl⟩

namespace Focus

variable {relations relations' : List FocusRelation}

/-- Some relation of the list justifies the step. -/
def Step (relations : List FocusRelation) (x z : String) : Prop :=
  ∃ r ∈ relations, r.Leads x z

/-- A chain of steps, with its length. -/
inductive Chain (relations : List FocusRelation) : Nat → String → String → Prop where
  | start (x : String) : Chain relations 0 x x
  | step {k : Nat} {x z y : String} :
      Step relations x z → Chain relations k z y → Chain relations (k + 1) x y

/-- A chain of at most `n` steps leads from `x` to `y`. -/
def Within (relations : List FocusRelation) (n : Nat) (x y : String) : Prop :=
  ∃ k ≤ n, Chain relations k x y

/-! ### Chains -/

theorem Within.refl (relations : List FocusRelation) (n : Nat) (x : String) :
  Within relations n x x
  := ⟨0, Nat.zero_le n, .start x⟩

theorem Within.mono {m n : Nat} {x y : String} (h : Within relations m x y) (le : m ≤ n) :
  Within relations n x y
  := by
  obtain ⟨k, hk, chain⟩ := h
  exact ⟨k, Nat.le_trans hk le, chain⟩

@[simp]
theorem within_zero {x y : String} :
  Within relations 0 x y ↔ x = y
  := by
  constructor
  · rintro ⟨k, hk, chain⟩
    cases chain with
    | start => rfl
    | step => omega
  · rintro rfl
    apply Within.refl

/-- A chain stands still or starts with a step. -/
theorem within_succ {n : Nat} {x y : String} :
  Within relations (n + 1) x y ↔ x = y ∨ ∃ z, Step relations x z ∧ Within relations n z y
  := by
  constructor
  · rintro ⟨k, hk, chain⟩
    cases chain with
    | start => apply Or.inl rfl
    | step first rest => exact .inr ⟨_, first, _, by omega, rest⟩
  · rintro (rfl | ⟨z, first, k, hk, rest⟩)
    · apply Within.refl
    · exact ⟨k + 1, by omega, .step first rest⟩

/-! ### One round -/

/-- A round adds what one step from a member reaches outside of the members. -/
theorem mem_added {members : List String} {z : String} :
  z ∈ added relations members ↔ z ∉ members ∧ ∃ x ∈ members, Step relations x z
  := by
  simp only [added, Ordered.mem_ofList, List.mem_flatMap, FocusRelation.mem_adds, Step]
  constructor
  · rintro ⟨r, hr, fresh, x, hx, leads⟩
    exact ⟨fresh, x, hx, r, hr, leads⟩
  · rintro ⟨fresh, x, hx, r, hr, leads⟩
    exact ⟨r, hr, fresh, x, hx, leads⟩

/-- When a round adds nothing, no step leaves the members. -/
theorem closed_of_added_eq_nil {members : List String} (h : added relations members = [])
    {x z : String} (hx : x ∈ members) (step : Step relations x z) :
  z ∈ members
  := by
  apply Decidable.byContradiction
  intro fresh
  have found : z ∈ added relations members := mem_added.mpr ⟨fresh, x, hx, step⟩
  rw [h] at found
  cases found

/-- Chains stay inside of members that no step leaves. -/
theorem Within.mem_of_closed {members : List String}
    (closed : ∀ {x z}, x ∈ members → Step relations x z → z ∈ members) {n : Nat} {x y : String}
    (h : Within relations n x y) (hx : x ∈ members) :
  y ∈ members
  := by
  obtain ⟨k, -, chain⟩ := h
  induction chain with
  | start => apply hx
  | step first _ ih => apply ih (closed hx first)

theorem grow_of_added_eq_nil {members : List String} (h : added relations members = [])
    (rounds : Nat) :
  grow relations (rounds + 1) members = ⟨members, [members.length], true⟩
  := by
  rw [grow, h]

theorem grow_of_added_ne_nil {members : List String} (h : added relations members ≠ [])
    (rounds : Nat) :
  grow relations (rounds + 1) members =
    let larger := Ordered.union (added relations members) members
    { grow relations rounds larger with
      roundSizes := larger.length :: (grow relations rounds larger).roundSizes }
  := by
  rw [grow]
  split
  · contradiction
  · rfl

/-! ### All rounds -/

/-- The members after some rounds are within that many steps of the first members. A chain of steps
is cut behind its first step, which ends among the members after one round. -/
theorem mem_grow (rounds : Nat) (members : List String) (y : String) :
  y ∈ (grow relations rounds members).members
    ↔ ∃ x ∈ members, Within relations rounds x y
  := by
  induction rounds generalizing members with
  | zero => simp [grow]
  | succ rounds ih =>
    by_cases stable : added relations members = []
    · rw [grow_of_added_eq_nil stable]
      constructor
      · intro hy
        exact ⟨y, hy, .refl relations _ y⟩
      · rintro ⟨x, hx, near⟩
        apply near.mem_of_closed (closed_of_added_eq_nil stable) hx
    · rw [grow_of_added_ne_nil stable, ih]
      simp only [Ordered.mem_union, mem_added, within_succ]
      constructor
      · rintro ⟨x, ⟨-, w, hw, step⟩ | hx, near⟩
        · exact ⟨w, hw, .inr ⟨x, step, near⟩⟩
        · exact ⟨x, hx, within_succ.mp (near.mono (Nat.le_succ rounds))⟩
      · rintro ⟨x, hx, rfl | ⟨z, step, near⟩⟩
        · exact ⟨x, .inr hx, .refl relations rounds x⟩
        · by_cases known : z ∈ members
          · exact ⟨z, .inr known, near⟩
          · exact ⟨z, .inl ⟨known, x, hx, step⟩, near⟩

theorem increasing_grow (rounds : Nat) {members : List String} (h : Increasing members) :
  Increasing (grow relations rounds members).members
  := by
  induction rounds generalizing members with
  | zero => apply h
  | succ rounds ih =>
    by_cases stable : added relations members = []
    · rw [grow_of_added_eq_nil stable]
      apply h
    · rw [grow_of_added_ne_nil stable]
      apply ih (Ordered.increasing_union h _)

theorem mem_expand {seed : String} {rounds : Nat} {y : String} :
  y ∈ (expand relations seed rounds).members ↔ Within relations rounds seed y
  := by
  rw [expand, mem_grow]
  simp

theorem increasing_expand (relations : List FocusRelation) (seed : String) (rounds : Nat) :
  Increasing (expand relations seed rounds).members
  := increasing_grow rounds (List.pairwise_singleton _ seed)

theorem mem_edgesWithin {members : List String} {e : Edge} :
  e ∈ edgesWithin relations members
    ↔ ∃ r ∈ relations, r.source ∈ members ∧ r.target ∈ members ∧ r.edge = e
  := by
  simp [edgesWithin, and_assoc]

/-- The edges between members, of relations that are read off other data. -/
theorem mem_edgesWithin_map {α : Type} {f : α → FocusRelation} {xs : List α}
    {members : List String} {e : Edge} :
  e ∈ edgesWithin (xs.map f) members
    ↔ (∃ x ∈ xs, (f x).edge = e) ∧ e.source ∈ members ∧ e.target ∈ members
  := by
  rw [mem_edgesWithin]
  constructor
  · rintro ⟨r, hr, source, target, rfl⟩
    obtain ⟨x, hx, rfl⟩ := List.mem_map.mp hr
    exact ⟨⟨x, hx, rfl⟩, source, target⟩
  · rintro ⟨⟨x, hx, rfl⟩, source, target⟩
    exact ⟨f x, List.mem_map_of_mem hx, source, target, rfl⟩

/-! ### Order and multiplicity of the relations -/

section Congruence

variable (same : ∀ r, r ∈ relations ↔ r ∈ relations')
include same

theorem added_congr (members : List String) :
  added relations members = added relations' members
  := by
  apply Ordered.ofList_congr
  intro z
  simp only [List.mem_flatMap, same]

theorem grow_congr (rounds : Nat) (members : List String) :
  grow relations rounds members = grow relations' rounds members
  := by
  induction rounds generalizing members with
  | zero => rfl
  | succ rounds ih =>
    have step := added_congr same members
    by_cases stable : added relations' members = []
    · rw [grow_of_added_eq_nil stable, grow_of_added_eq_nil (step.trans stable)]
    · rw [grow_of_added_ne_nil stable, grow_of_added_ne_nil (step ▸ stable), step]
      simp only [ih]

theorem edgesWithin_congr (members : List String) :
  edgesWithin relations members = edgesWithin relations' members
  := by
  apply Ordered.ofList_congr
  intro e
  simp only [List.mem_map, List.mem_filter, same]

/-- The subgraph depends only on which relations there are. -/
theorem expand_congr (seed : String) (rounds : Nat) :
  expand relations seed rounds = expand relations' seed rounds
  := by
  simp only [expand, grow_congr same, edgesWithin_congr same]

end Congruence

/-- The focused subgraph is the ball around its seed with the edges inside of it: the members
are the ends of the chains of at most `rounds` steps from the seed, the edges are those of the
relations between members, sorted and each once, and the whole subgraph is the same for every
list of the same relations. -/
theorem expand_is_ball (relations : List FocusRelation) (seed : String) (rounds : Nat) :
  let ball := expand relations seed rounds
  (∀ y, y ∈ ball.members ↔ ∃ k ≤ rounds, Chain relations k seed y)
    ∧ Increasing ball.members
    ∧ (∀ e, e ∈ ball.edges ↔ ∃ r ∈ relations, r.source ∈ ball.members
        ∧ r.target ∈ ball.members ∧ ⟨r.source, r.target, r.kind⟩ = e)
    ∧ Increasing ball.edges
    ∧ ball.edges.Nodup
    ∧ ∀ relations', (∀ r, r ∈ relations' ↔ r ∈ relations) →
        expand relations' seed rounds = ball
  := by
  intro ball
  have sorted : Increasing ball.edges := Ordered.increasing_ofList _
  and_intros
  · intro y
    apply mem_expand
  · apply increasing_expand
  · intro e
    apply mem_edgesWithin
  · apply sorted
  · apply sorted.nodup
  · intro relations' same
    apply expand_congr same

end Focus

end SourceAtlas
