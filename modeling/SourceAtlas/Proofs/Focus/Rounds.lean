import Mathlib.Data.Set.Card
import SourceAtlas.Proofs.Focus

/-!
# The rounds of a focused neighbourhood

Rounds stop because no more are allowed, because a closing round adds nothing, or they go on
from larger members (`Grown`). A round that adds something takes in an end of some relation, so
there is at most one more round than there are such ends (`Grown.length_le`). The recorded sizes
are those of the balls around the seed (`roundSizes_eq_ncard`). They grow from round to round,
except that a closing round repeats the size before it (`Grown.repeating`), and further rounds
after a closing one would change nothing (`Grown.grow_eq`).
-/

namespace SourceAtlas.Focus

open Ordered (Increasing)

variable {relations : List FocusRelation} {members : List String}

/-! ### One round -/

/-- The members after a round. -/
def enlarge (relations : List FocusRelation) (members : List String) : List String :=
  Ordered.union (added relations members) members

theorem mem_enlarge {x : String} :
  x ∈ enlarge relations members ↔ x ∈ added relations members ∨ x ∈ members
  := Ordered.mem_union

theorem increasing_enlarge (sorted : Increasing members) :
  Increasing (enlarge relations members)
  := Ordered.increasing_union sorted _

theorem length_lt_of_fresh {xs ys : List String} {z : String} (distinct : xs.Nodup)
    (sub : xs ⊆ ys) (hz : z ∈ ys) (fresh : z ∉ xs) :
  xs.length < ys.length
  := by
  have larger : z :: xs ⊆ ys := List.cons_subset.mpr ⟨hz, sub⟩
  have nodup : (z :: xs).Nodup := List.nodup_cons.mpr ⟨fresh, distinct⟩
  apply (List.subperm_of_subset nodup larger).length_le

/-- A round that adds something makes the members more. -/
theorem length_lt_enlarge (sorted : Increasing members) (h : added relations members ≠ []) :
  members.length < (enlarge relations members).length
  := by
  obtain ⟨z, hz⟩ := List.exists_mem_of_ne_nil _ h
  apply length_lt_of_fresh sorted.nodup
  · intro x hx
    apply mem_enlarge.mpr (.inr hx)
  · apply mem_enlarge.mpr (.inl hz)
  · apply (mem_added.mp hz).1

/-- The identities at the ends of the relations, in order. -/
def ends (relations : List FocusRelation) : List String :=
  Ordered.ofList (relations.flatMap fun r => [r.source, r.target])

/-- The ends of relations that are not members. -/
def outside (relations : List FocusRelation) (members : List String) : List String :=
  (ends relations).filter (· ∉ members)

theorem mem_outside {x : String} :
  x ∈ outside relations members ↔ x ∈ ends relations ∧ x ∉ members
  := by
  simp [outside]

theorem mem_ends_of_step {x z : String} (h : Step relations x z) :
  z ∈ ends relations
  := by
  obtain ⟨r, hr, leads⟩ := h
  apply Ordered.mem_ofList.mpr
  apply List.mem_flatMap.mpr
  use r, hr
  obtain ⟨-, rfl⟩ | ⟨rfl, -⟩ := leads
  · simp
  · simp

/-- A round that adds something leaves fewer ends outside. -/
theorem length_outside_lt (h : added relations members ≠ []) :
  (outside relations (enlarge relations members)).length < (outside relations members).length
  := by
  obtain ⟨z, hz⟩ := List.exists_mem_of_ne_nil _ h
  obtain ⟨fresh, x, -, step⟩ := mem_added.mp hz
  apply length_lt_of_fresh (z := z)
  · apply (Ordered.increasing_ofList _).nodup.filter
  · intro y hy
    obtain ⟨hy, unknown⟩ := mem_outside.mp hy
    apply mem_outside.mpr ⟨hy, _⟩
    intro known
    exact unknown (mem_enlarge.mpr (.inr known))
  · exact mem_outside.mpr ⟨mem_ends_of_step step, fresh⟩
  · intro still
    exact (mem_outside.mp still).2 (mem_enlarge.mpr (.inl hz))

/-- The round that follows `j` rounds finds something new. -/
def Grows (relations : List FocusRelation) (members : List String) (j : Nat) : Prop :=
  ∃ y, (∃ x ∈ members, Within relations (j + 1) x y) ∧ ¬ ∃ x ∈ members, Within relations j x y

theorem grows_zero :
  Grows relations members 0 ↔ added relations members ≠ []
  := by
  constructor
  · rintro ⟨y, ⟨x, hx, near⟩, fresh⟩ stable
    apply fresh
    exact ⟨y, near.mem_of_closed (closed_of_added_eq_nil stable) hx, .refl relations 0 y⟩
  · intro h
    obtain ⟨z, hz⟩ := List.exists_mem_of_ne_nil _ h
    obtain ⟨fresh, x, hx, step⟩ := mem_added.mp hz
    use z
    constructor
    · exact ⟨x, hx, within_succ.mpr (.inr ⟨z, step, .refl relations 0 z⟩)⟩
    · rintro ⟨y, hy, near⟩
      obtain rfl := within_zero.mp near
      exact fresh hy

/-- After a round that adds something, the later rounds are counted from the larger members. -/
theorem grows_succ (h : added relations members ≠ []) (j : Nat) :
  Grows relations members (j + 1) ↔ Grows relations (enlarge relations members) j
  := by
  have nearer (k : Nat) (y : String) : (∃ x ∈ members, Within relations (k + 1) x y)
      ↔ ∃ x ∈ enlarge relations members, Within relations k x y := by
    rw [← mem_grow, ← mem_grow, grow_of_added_ne_nil h]
    rfl
  simp only [Grows, nearer]

/-! ### All rounds -/

/-- How the growth from some members comes about, with the number of rounds that are allowed: no
round is left, or the round adds nothing, or the growth goes on from the larger members. -/
inductive Grown (relations : List FocusRelation) : Nat → List String → Growth → Prop where
  | stopped (members : List String) : Grown relations 0 members ⟨members, [], false⟩
  | closed {rounds : Nat} {members : List String} :
      added relations members = [] →
      Grown relations (rounds + 1) members ⟨members, [members.length], true⟩
  | round {rounds : Nat} {members : List String} {rest : Growth} :
      added relations members ≠ [] →
      Grown relations rounds (enlarge relations members) rest →
      Grown relations (rounds + 1) members
        { rest with roundSizes := (enlarge relations members).length :: rest.roundSizes }

theorem grown_grow (rounds : Nat) (members : List String) :
  Grown relations rounds members (grow relations rounds members)
  := by
  induction rounds generalizing members with
  | zero => apply Grown.stopped
  | succ rounds ih =>
    by_cases stable : added relations members = []
    · rw [grow_of_added_eq_nil stable]
      apply Grown.closed stable
    · rw [grow_of_added_ne_nil stable]
      apply Grown.round stable (ih _)

/-- All sizes but the last grow strictly, and the last one repeats the size before it. -/
def Repeating (sizes : List Nat) : Prop :=
  ∃ front size, sizes = front ++ [size] ∧ front.Pairwise (· < ·) ∧ front.getLast? = some size

theorem Repeating.not_pairwise {sizes : List Nat} (h : Repeating sizes) :
  ¬ sizes.Pairwise (· < ·)
  := by
  obtain ⟨front, size, rfl, -, last⟩ := h
  intro grown
  have less := (List.pairwise_append.mp grown).2.2 size (List.mem_of_getLast? last) size
    List.mem_cons_self
  apply Nat.lt_irrefl size less

theorem pairwise_cons_cons {x y : Nat} {xs : List Nat} (less : x < y)
    (h : (y :: xs).Pairwise (· < ·)) :
  (x :: y :: xs).Pairwise (· < ·)
  := by
  apply List.isChain_iff_pairwise.mp
  exact List.isChain_cons_cons.mpr ⟨less, List.isChain_iff_pairwise.mpr h⟩

namespace Grown

variable {rounds : Nat} {growth : Growth}

theorem length_le (h : Grown relations rounds members growth) :
  growth.roundSizes.length ≤ min rounds (1 + (outside relations members).length)
  := by
  induction h with
  | stopped => simp
  | closed =>
    rw [List.length_singleton]
    omega
  | round fresh _ ih =>
    have fewer := length_outside_lt fresh
    rw [List.length_cons]
    omega

/-- The rounds end early only if they close. -/
theorem length_eq (h : Grown relations rounds members growth)
    (unclosed : growth.stabilized = false) :
  growth.roundSizes.length = rounds
  := by
  induction h with
  | stopped => rfl
  | closed => contradiction
  | round _ _ ih => rw [List.length_cons, ih unclosed]

/-- The round after `i` others is carried out exactly if there may be so many rounds and each of
the others found something new. -/
theorem lt_length_iff (h : Grown relations rounds members growth) (i : Nat) :
  i < growth.roundSizes.length ↔ i < rounds ∧ ∀ j < i, Grows relations members j
  := by
  induction h generalizing i with
  | stopped => simp
  | closed stable =>
    constructor
    · intro first
      obtain rfl : i = 0 := by simpa using first
      simp
    · rintro ⟨-, grown⟩
      by_contra! later
      exact grows_zero.mp (grown 0 later) stable
  | round fresh _ ih =>
    cases i with
    | zero => simp
    | succ i =>
      simp only [List.length_cons, Nat.add_lt_add_iff_right, ih, ← grows_succ fresh]
      constructor
      · rintro ⟨hi, grown⟩
        use hi
        intro j hj
        cases j with
        | zero => apply grows_zero.mpr fresh
        | succ j => apply grown j (by omega)
      · rintro ⟨hi, grown⟩
        exact ⟨hi, fun j hj => grown (j + 1) (by omega)⟩

/-- A recorded size is the number of members that as many rounds leave. -/
theorem getElem_eq (h : Grown relations rounds members growth) (i : Nat)
    (hi : i < growth.roundSizes.length) :
  growth.roundSizes[i] = (grow relations (i + 1) members).members.length
  := by
  induction h generalizing i with
  | stopped => simp at hi
  | closed stable =>
    rw [grow_of_added_eq_nil stable]
    simp
  | round fresh _ ih =>
    rw [grow_of_added_ne_nil fresh]
    cases i with
    | zero => rfl
    | succ i => apply ih

/-- Without a closing round, the sizes grow strictly. -/
theorem pairwise (h : Grown relations rounds members growth) (sorted : Increasing members)
    (unclosed : growth.stabilized = false) :
  (members.length :: growth.roundSizes).Pairwise (· < ·)
  := by
  induction h with
  | stopped => apply List.pairwise_singleton
  | closed => contradiction
  | round fresh _ ih =>
    apply pairwise_cons_cons (length_lt_enlarge sorted fresh)
    apply ih (increasing_enlarge sorted) unclosed

/-- A closing round repeats the size before it. -/
theorem repeating (h : Grown relations rounds members growth) (sorted : Increasing members)
    (closed : growth.stabilized = true) :
  Repeating (members.length :: growth.roundSizes)
  := by
  induction h with
  | stopped => contradiction
  | closed => exact ⟨[_], _, rfl, List.pairwise_singleton _ _, rfl⟩
  | @round _ members _ fresh _ ih =>
    obtain ⟨front, size, split, grown, last⟩ := ih (increasing_enlarge sorted) closed
    cases front with
    | nil => simp at last
    | cons first front =>
      obtain ⟨rfl, split⟩ := List.cons.inj split
      use members.length :: (enlarge relations members).length :: front, size
      and_intros
      · rw [split]
        rfl
      · apply pairwise_cons_cons (length_lt_enlarge sorted fresh) grown
      · rw [List.getLast?_cons_cons]
        exact last

theorem added_eq_nil (h : Grown relations rounds members growth)
    (closed : growth.stabilized = true) :
  added relations growth.members = []
  := by
  induction h with
  | stopped => contradiction
  | closed stable => apply stable
  | round _ _ ih => apply ih closed

/-- Once the rounds have closed, any number of rounds that suffices has the same outcome. -/
theorem grow_eq (h : Grown relations rounds members growth)
    (closed : growth.stabilized = true) {rounds' : Nat}
    (enough : growth.roundSizes.length ≤ rounds') :
  grow relations rounds' members = growth
  := by
  induction h generalizing rounds' with
  | stopped => contradiction
  | closed stable =>
    obtain ⟨k, rfl⟩ := Nat.exists_eq_add_of_le' enough
    apply grow_of_added_eq_nil stable
  | round fresh _ ih =>
    cases rounds' with
    | zero => simp at enough
    | succ k =>
      have same := ih closed (Nat.le_of_succ_le_succ enough)
      simp only [grow_of_added_ne_nil fresh, ← same]
      rfl

end Grown

/-- When the rounds have closed, no step leaves the members. -/
theorem closed_of_stabilized {seed : String} {rounds : Nat}
    (stable : (expand relations seed rounds).stabilized = true) {x z : String}
    (hx : x ∈ (expand relations seed rounds).members) (step : Step relations x z) :
  z ∈ (expand relations seed rounds).members
  := closed_of_added_eq_nil ((grown_grow rounds [seed]).added_eq_nil stable) hx step

/-- More rounds than there are ends of relations to find are closed. -/
theorem stabilized_of_lt {seed : String} {rounds : Nat}
    (enough : 1 + (outside relations [seed]).length < rounds) :
  (expand relations seed rounds).stabilized = true
  := by
  have grown : Grown relations rounds [seed] (grow relations rounds [seed]) :=
    grown_grow rounds [seed]
  by_contra unclosed
  have all := grown.length_eq (Bool.eq_false_of_not_eq_true unclosed)
  have few := grown.length_le
  omega

theorem ncard_eq_length {xs : List String} (distinct : xs.Nodup) :
  {y | y ∈ xs}.ncard = xs.length
  := by
  rw [← List.toFinset_card_of_nodup distinct, ← Set.ncard_coe_finset, List.coe_toFinset]

/-- A recorded size is the number of identities in the ball of that many steps. -/
theorem roundSizes_eq_ncard (seed : String) (rounds i : Nat)
    (hi : i < (expand relations seed rounds).roundSizes.length) :
  (expand relations seed rounds).roundSizes[i]
    = {y | Within relations (i + 1) seed y}.ncard
  := by
  have sorted := increasing_expand relations seed (i + 1)
  have size := ncard_eq_length sorted.nodup
  simp only [mem_expand] at size
  rw [size]
  apply (grown_grow rounds [seed]).getElem_eq i hi

/-- The rounds around a seed, at most as many as are asked for. Round `i` is carried out exactly
if each round before it found something new, and records the number of identities within `i + 1`
steps of the seed. There is at most one more round than there are ends of relations besides the
seed. From the seed alone on, the sizes grow strictly, except that a closing round repeats the
last size. Rounds without a closing one are as many as were asked for. With a closing one, no
step leaves the members, and any other number of rounds that suffices gives the same subgraph. -/
theorem expand_rounds (relations : List FocusRelation) (seed : String) (rounds : Nat) :
  let ball := expand relations seed rounds
  let executed := ball.roundSizes.length
  (∀ i, i < executed ↔ i < rounds ∧ ∀ j < i, ∃ y,
      Within relations (j + 1) seed y ∧ ¬ Within relations j seed y)
    ∧ executed ≤ min rounds (1 + ((ends relations).filter (· ≠ seed)).length)
    ∧ (∀ (i : Nat) (_ : i < executed),
        ball.roundSizes[i] = {y | Within relations (i + 1) seed y}.ncard)
    ∧ (ball.stabilized = false ↔ (1 :: ball.roundSizes).Pairwise (· < ·))
    ∧ (ball.stabilized = true ↔ Repeating (1 :: ball.roundSizes))
    ∧ (ball.stabilized = false → executed = rounds)
    ∧ (ball.stabilized = true →
        (∀ x ∈ ball.members, ∀ z, Step relations x z → z ∈ ball.members)
          ∧ ∀ rounds', executed ≤ rounds' → expand relations seed rounds' = ball)
  := by
  intro ball executed
  have sorted : Increasing [seed] := List.pairwise_singleton _ seed
  have grown : Grown relations rounds [seed] (grow relations rounds [seed]) :=
    grown_grow rounds [seed]
  have growing : ball.stabilized = false → (1 :: ball.roundSizes).Pairwise (· < ·) :=
    grown.pairwise sorted
  have repeating : ball.stabilized = true → Repeating (1 :: ball.roundSizes) :=
    grown.repeating sorted
  and_intros
  · intro i
    apply Iff.trans (grown.lt_length_iff i)
    simp only [Grows, List.mem_singleton, exists_eq_left]
  · apply Nat.le_trans grown.length_le
    simp only [outside, List.mem_singleton, ne_eq, le_refl]
  · apply roundSizes_eq_ncard
  · use growing
    intro strict
    by_contra closed
    have twice := repeating (by simpa using closed)
    apply twice.not_pairwise strict
  · use repeating
    intro twice
    by_contra unclosed
    apply twice.not_pairwise (growing (by simpa using unclosed))
  · apply grown.length_eq
  · intro closed
    constructor
    · intro x hx z step
      apply closed_of_added_eq_nil (grown.added_eq_nil closed) hx step
    · intro rounds' enough
      simp only [ball, expand, grown.grow_eq closed enough]

end SourceAtlas.Focus
