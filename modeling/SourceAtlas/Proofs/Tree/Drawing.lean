import SourceAtlas.Proofs.Tree.Spanning

/-!
# How listings are drawn

The indentation and the connector of an entry are fixed when it is put on the stack, before the
lines that follow it are known. Nevertheless they can be read off these lines: a level has a pipe
exactly if it continues further down, that is, if a later line is on it and no line before that one
is above it (`Continues`). Which levels continue is already told by the stack (`continues_lines`),
and every stack that comes up is drawn for what lies below its entries (`Aligned`).
-/

namespace SourceAtlas.Tree

variable {g : Graph} {direction : Direction} {level depth : Nat} {later : List Nat}

/-! ### Levels that continue -/

/-- Among lines with the given depths one is on the level, and none before it is above. -/
def Continues (level : Nat) (later : List Nat) : Prop :=
  ∃ between after, later = between ++ level :: after ∧ ∀ d ∈ between, level ≤ d

theorem not_continues_nil :
  ¬ Continues level []
  := by
  rintro ⟨between, after, split, -⟩
  simp at split

theorem continues_cons :
  Continues level (depth :: later) ↔ depth = level ∨ level < depth ∧ Continues level later
  := by
  constructor
  · rintro ⟨between, after, split, deep⟩
    cases between with
    | nil => apply Or.inl (List.cons.inj split).1
    | cons d between =>
      obtain ⟨rfl, rest⟩ := List.cons.inj split
      obtain same | below := Nat.eq_or_lt_of_le (deep depth List.mem_cons_self)
      · apply Or.inl same.symm
      · exact .inr ⟨below, between, after, rest, fun d hd => deep d (List.mem_cons_of_mem _ hd)⟩
  · rintro (rfl | ⟨below, between, after, rfl, deep⟩)
    · exact ⟨[], later, rfl, by simp⟩
    · refine ⟨depth :: between, after, rfl, ?_⟩
      intro d hd
      obtain rfl | hd := List.mem_cons.mp hd
      · apply Nat.le_of_lt below
      · apply deep d hd

instance decidableContinues (level : Nat) : (later : List Nat) → Decidable (Continues level later)
  | [] => isFalse not_continues_nil
  | depth :: later =>
    have := decidableContinues level later
    decidable_of_iff (depth = level ∨ level < depth ∧ Continues level later) continues_cons.symm

example : Continues 1 [2, 3, 1, 0] ∧ ¬ Continues 2 [1, 2, 0] := by decide

/-- Lines below a level do not keep it from continuing. -/
theorem continues_append_of_lt {deeper : List Nat} (deep : ∀ d ∈ deeper, level < d) :
  Continues level (deeper ++ later) ↔ Continues level later
  := by
  induction deeper with
  | nil => rfl
  | cons d deeper ih =>
    have below := deep d List.mem_cons_self
    rw [List.cons_append, continues_cons, ih fun d' hd => deep d' (List.mem_cons_of_mem d hd)]
    constructor
    · rintro (rfl | ⟨-, further⟩)
      · exact absurd below (Nat.lt_irrefl d)
      · apply further
    · intro further
      exact .inr ⟨below, further⟩

/-- A level does not continue where all lines are above it. -/
theorem not_continues_of_lt (above : ∀ d ∈ later, d < level) :
  ¬ Continues level later
  := by
  rintro ⟨between, after, rfl, -⟩
  apply Nat.lt_irrefl level
  apply above level
  simp

/-! ### Glyphs -/

/-- What is drawn in the column of a level, left of all that is below it. -/
def column (later : List Nat) (level : Nat) : String :=
  if Continues level later then pipe else space

/-- The columns of the levels from 1 up to the given one. -/
def columns (later : List Nat) (depth : Nat) : String :=
  String.join ((List.range depth).map fun k => column later (k + 1))

/-- A line as it is drawn above lines with the given depths. -/
def drawn (l : Line) (later : List Nat) : String :=
  columns later (l.depth - 1) ++ (if Continues l.depth later then branch else lastBranch)
    ++ l.identity ++ (if l.cyclic then cyclicMark else "")

theorem columns_succ (later : List Nat) (depth : Nat) :
  columns later (depth + 1) = columns later depth ++ column later (depth + 1)
  := by
  rw [columns, columns, List.range_succ, List.map_append, String.join_append]
  simp [String.join]

theorem columns_congr {later' : List Nat}
    (alike : ∀ level ≤ depth, Continues level later ↔ Continues level later') :
  columns later depth = columns later' depth
  := by
  induction depth with
  | zero => rfl
  | succ depth ih =>
    rw [columns_succ, columns_succ, ih fun level le => alike level (Nat.le_succ_of_le le), column,
      column]
    simp only [alike (depth + 1) (Nat.le_refl _)]

/-! ### Stacks -/

namespace Pending

variable {stack : List Pending}

theorem map_depth_siblings (depth : Nat) (indent : String) (xs : List String) :
  (siblings depth indent xs).map Pending.depth = List.replicate xs.length depth
  := by
  fun_induction siblings depth indent xs with
  | case1 => rfl
  | case2 x => rfl
  | case3 x y rest ih =>
    rw [List.map_cons, ih]
    rfl

/-- The levels above some siblings continue past them. -/
theorem continues_siblings (le : level ≤ depth) (indent : String) (xs : List String) :
  Continues level ((siblings (depth + 1) indent xs ++ stack).map Pending.depth)
    ↔ Continues level (stack.map Pending.depth)
  := by
  rw [List.map_append, map_depth_siblings]
  apply continues_append_of_lt
  intro d hd
  obtain rfl := List.eq_of_mem_replicate hd
  apply Nat.lt_succ_of_le le

end Pending

/-- Which levels continue can be told from the stack before anything of it is listed. What comes
below an entry is deeper than the levels above it, which continue past all of it. -/
theorem continues_lines (visited : List String) (stack : List Pending) :
  Continues level (((⟨visited, stack⟩ : Cursor).lines g direction).map Line.depth)
    ↔ Continues level (stack.map Pending.depth)
  := by
  induction visited, stack using Cursor.induction g direction with
  | ended visited =>
    rw [Cursor.lines_nil]
    rfl
  | again visited p stack known ih =>
    rw [Cursor.lines_cons_of_mem known, List.map_cons, List.map_cons, continues_cons,
      continues_cons, ih]
    rfl
  | expand visited p stack fresh ih =>
    rw [Cursor.lines_cons_of_not_mem fresh, List.map_cons, List.map_cons, continues_cons,
      continues_cons, ih]
    apply or_congr Iff.rfl
    apply and_congr_right
    intro below
    apply Pending.continues_siblings (Nat.le_of_lt below)

/-- Every entry of the stack is drawn for the entries below it, none of which is deeper. -/
inductive Aligned : List Pending → Prop where
  | nil : Aligned []
  | cons {p : Pending} {stack : List Pending} (deepest : ∀ q ∈ stack, q.depth ≤ p.depth)
      (indent : p.indent = columns (stack.map Pending.depth) (p.depth - 1))
      (last : p.isLast = true ↔ ¬ Continues p.depth (stack.map Pending.depth))
      (rest : Aligned stack) :
    Aligned (p :: stack)

namespace Aligned

variable {p : Pending} {stack : List Pending}

theorem childIndent_eq (h : Aligned (p :: stack)) :
  p.childIndent = columns (stack.map Pending.depth) p.depth
  := by
  cases h with
  | cons _ indent last _ =>
    rw [Pending.childIndent]
    cases deep : p.depth with
    | zero => rfl
    | succ depth =>
      rw [deep, Nat.add_sub_cancel] at indent
      rw [deep] at last
      rw [if_neg (Nat.succ_ne_zero depth), columns_succ, indent, column]
      by_cases further : Continues (depth + 1) (stack.map Pending.depth)
      · simp [further, last]
      · simp [further, last.mpr further]

/-- Siblings fit on a stack of which nothing reaches their level. The level ends with the last of
them, and the others hide none of the levels above. -/
theorem siblings_append (h : Aligned stack) (above : ∀ q ∈ stack, q.depth ≤ depth)
    (xs : List String) :
  Aligned (Pending.siblings (depth + 1) (columns (stack.map Pending.depth) depth) xs ++ stack)
  := by
  induction xs with
  | nil => apply h
  | cons x xs ih =>
    cases xs with
    | nil =>
      apply Aligned.cons _ rfl _ h
      · intro q hq
        apply Nat.le_succ_of_le (above q hq)
      · apply iff_of_true rfl
        apply not_continues_of_lt
        intro d hd
        obtain ⟨q, hq, rfl⟩ := List.mem_map.mp hd
        apply Nat.lt_succ_of_le (above q hq)
    | cons y xs =>
      apply Aligned.cons _ _ _ ih
      · intro q hq
        obtain hq | hq := List.mem_append.mp hq
        · apply Nat.le_of_eq (Pending.depth_siblings hq)
        · apply Nat.le_succ_of_le (above q hq)
      · apply columns_congr
        intro level le
        apply (Pending.continues_siblings le _ _).symm
      · rw [List.map_append, Pending.map_depth_siblings, List.length_cons, List.replicate_succ,
          List.cons_append, continues_cons]
        simp

theorem children (h : Aligned (p :: stack)) (g : Graph) (direction : Direction) :
  Aligned (p.children g direction ++ stack)
  := by
  rw [Pending.children, h.childIndent_eq]
  cases h with
  | cons deepest _ _ rest => apply rest.siblings_append deepest

/-- The line of an entry is drawn as any later lines want it that continue the same levels as the
rest of the stack. -/
theorem text_line (h : Aligned (p :: stack)) (below : 0 < p.depth)
    (alike : ∀ level ≤ p.depth, Continues level later
      ↔ Continues level (stack.map Pending.depth))
    (cyclic : Bool) :
  (p.line cyclic).text = drawn (p.line cyclic) later
  := by
  cases h with
  | cons _ indent last _ =>
    have left : columns later ((p.line cyclic).depth - 1) = p.indent := by
      rw [indent]
      apply columns_congr
      intro level le
      apply alike level (Nat.le_trans le (Nat.sub_le _ _))
    have sign : (if Continues (p.line cyclic).depth later then branch else lastBranch)
        = p.connector := by
      rw [Pending.connector, if_neg (Nat.ne_of_gt below)]
      simp only [last, ite_not, ← alike p.depth (Nat.le_refl _)]
      rfl
    rw [drawn, left, sign]
    rfl

/-- All lines below the root are drawn as the lines behind them want it. -/
theorem text_eq_drawn {visited : List String} (h : Aligned stack) {before after : List Line}
    {l : Line} (split : (⟨visited, stack⟩ : Cursor).lines g direction = before ++ l :: after)
    (below : 0 < l.depth) :
  l.text = drawn l (after.map Line.depth)
  := by
  induction visited, stack using Cursor.induction g direction generalizing before with
  | ended visited =>
    simp at split
  | again visited p stack known ih =>
    rw [Cursor.lines_cons_of_mem known] at split
    cases before with
    | nil =>
      obtain ⟨rfl, rfl⟩ := List.cons.inj split
      apply h.text_line below
      intro level _
      apply continues_lines
    | cons b before =>
      cases h with
      | cons _ _ _ rest => apply ih rest (List.cons.inj split).2
  | expand visited p stack fresh ih =>
    rw [Cursor.lines_cons_of_not_mem fresh] at split
    cases before with
    | nil =>
      obtain ⟨rfl, rfl⟩ := List.cons.inj split
      apply h.text_line below
      intro level le
      rw [continues_lines]
      apply Pending.continues_siblings le
    | cons b before => apply ih (h.children g direction) (List.cons.inj split).2

end Aligned

theorem aligned_root (x : String) :
  Aligned [root x]
  := by
  apply Aligned.cons _ rfl _ .nil
  · simp
  · apply iff_of_true rfl not_continues_nil

/-- The root is on the first line only. -/
theorem depth_pos_of_mem_lines (g : Graph) (direction : Direction) (x : String) :
  ∀ l ∈ (⟨[x], (root x).children g direction⟩ : Cursor).lines g direction, 0 < l.depth
  := by
  obtain ⟨visits, visited', walk, unfolds⟩ := unfolding_listing g direction x
  rw [listing_eq, List.map_cons] at walk
  intro l hl
  have visited := List.mem_map_of_mem (f := Line.visit) hl
  rw [(List.cons.inj walk).2] at visited
  apply unfolds.depth_lt _ visited

/-- Below the root, which is listed as its bare identity, every line of a listing is drawn as the
depths of the lines behind it want it: a column for every level above the line, with a pipe if the
level continues and blank if not, a branch if the level of the line itself continues and a last
branch if not, and then the identity with its mark. -/
theorem listing_drawn_by_depths (g : Graph) (direction : Direction) (x : String) :
  (∃ below, listing g direction x = ⟨x, 0, false, x⟩ :: below ∧ ∀ l ∈ below, 0 < l.depth)
    ∧ ∀ before l after, listing g direction x = before ++ l :: after → 0 < l.depth →
      let later := after.map Line.depth
      let left := String.join ((List.range (l.depth - 1)).map fun k =>
        if Continues (k + 1) later then pipe else space)
      let connector := if Continues l.depth later then branch else lastBranch
      l.text = left ++ connector ++ l.identity ++ (if l.cyclic then cyclicMark else "")
  := by
  constructor
  · exact ⟨_, listing_eq g direction x, depth_pos_of_mem_lines g direction x⟩
  · intro before l after split below
    apply (aligned_root x).text_eq_drawn split below

end SourceAtlas.Tree
