import SourceAtlas.Proofs.Graph
import SourceAtlas.Tree

/-!
# Listings are preorder walks

The listing of a graph comes from a stack of pending entries, where an entry may become
visited while it waits. This module describes it in two other ways. A cursor gives the lines
one at a time and ends (`yields_lines`). A recursive walk visits an identity and then, in
order, everything below it, with one set of visited identities that is handed on from each
visit to the next; its visits are the lines of the listing (`visits_listing`).
-/

namespace SourceAtlas.Tree

open Ordered (Increasing)

variable {g : Graph} {direction : Direction}

/-! ### One line at a time -/

namespace Cursor

theorem next?_of_mem {visited : List String} {p : Pending} (known : p.identity ∈ visited)
    (stack : List Pending) :
  (⟨visited, p :: stack⟩ : Cursor).next? g direction = some (p.line true, ⟨visited, stack⟩)
  := by
  rw [next?, if_pos (List.contains_iff_mem.mpr known)]

theorem next?_of_not_mem {visited : List String} {p : Pending} (fresh : p.identity ∉ visited)
    (stack : List Pending) :
  (⟨visited, p :: stack⟩ : Cursor).next? g direction
    = some (p.line false, ⟨p.identity :: visited, p.children g direction ++ stack⟩)
  := by
  rw [next?, if_neg (mt List.contains_iff_mem.mp fresh)]

theorem lines_of_next?_eq_none {c : Cursor} (h : c.next? g direction = none) :
  c.lines g direction = []
  := by
  rw [lines]
  split
  · rfl
  · simp_all

theorem lines_of_next?_eq_some {c c' : Cursor} {l : Line}
    (h : c.next? g direction = some (l, c')) :
  c.lines g direction = l :: c'.lines g direction
  := by
  rw [lines]
  split
  · simp_all
  · simp_all

@[simp]
theorem lines_nil (visited : List String) :
  (⟨visited, []⟩ : Cursor).lines g direction = []
  := lines_of_next?_eq_none rfl

theorem lines_cons_of_mem {visited : List String} {p : Pending} (known : p.identity ∈ visited)
    (stack : List Pending) :
  (⟨visited, p :: stack⟩ : Cursor).lines g direction
    = p.line true :: (⟨visited, stack⟩ : Cursor).lines g direction
  := lines_of_next?_eq_some (next?_of_mem known stack)

theorem lines_cons_of_not_mem {visited : List String} {p : Pending}
    (fresh : p.identity ∉ visited) (stack : List Pending) :
  (⟨visited, p :: stack⟩ : Cursor).lines g direction
    = p.line false
      :: (⟨p.identity :: visited, p.children g direction ++ stack⟩ : Cursor).lines g direction
  := lines_of_next?_eq_some (next?_of_not_mem fresh stack)

/-- Induction along the lines of a listing: past an entry whose identity was visited, and from a
fresh entry to the stack with the entries below it. -/
theorem induction (g : Graph) (direction : Direction)
    {motive : List String → List Pending → Prop}
    (ended : ∀ visited, motive visited [])
    (again : ∀ visited p stack, p.identity ∈ visited → motive visited stack →
      motive visited (p :: stack))
    (expand : ∀ visited p stack, p.identity ∉ visited →
      motive (p.identity :: visited) (p.children g direction ++ stack) →
      motive visited (p :: stack))
    (visited : List String) (stack : List Pending) :
  motive visited stack
  := by
  suffices all : ∀ c : Cursor, motive c.visited c.stack from all ⟨visited, stack⟩
  intro c
  induction c using lines.induct g direction with
  | case1 c done =>
    obtain ⟨visited, stack⟩ := c
    cases stack with
    | nil => apply ended
    | cons p stack =>
      by_cases known : p.identity ∈ visited
      · rw [next?_of_mem known] at done
        contradiction
      · rw [next?_of_not_mem known] at done
        contradiction
  | case2 c l c' step ih =>
    obtain ⟨visited, stack⟩ := c
    cases stack with
    | nil => cases step
    | cons p stack =>
      by_cases known : p.identity ∈ visited
      · rw [next?_of_mem known] at step
        obtain ⟨rfl, rfl⟩ := Prod.mk.inj (Option.some.inj step)
        apply again visited p stack known ih
      · rw [next?_of_not_mem known] at step
        obtain ⟨rfl, rfl⟩ := Prod.mk.inj (Option.some.inj step)
        apply expand visited p stack known ih

end Cursor

/-- The traversal yields exactly these lines and then ends. -/
inductive Yields (g : Graph) (direction : Direction) : Cursor → List Line → Prop where
  | ended {c : Cursor} : c.next? g direction = none → Yields g direction c []
  | line {c c' : Cursor} {l : Line} {rest : List Line} :
      c.next? g direction = some (l, c') → Yields g direction c' rest →
      Yields g direction c (l :: rest)

/-- From every cursor the traversal ends, with the lines that it has still to give. -/
theorem yields_lines (c : Cursor) :
  Yields g direction c (c.lines g direction)
  := by
  induction c using Cursor.lines.induct g direction with
  | case1 c done =>
    rw [Cursor.lines_of_next?_eq_none done]
    apply Yields.ended done
  | case2 c l c' step ih =>
    rw [Cursor.lines_of_next?_eq_some step]
    apply Yields.line step ih

theorem Yields.unique {c : Cursor} {ls ls' : List Line} (h : Yields g direction c ls)
    (h' : Yields g direction c ls') :
  ls = ls'
  := by
  induction h generalizing ls' with
  | ended none =>
    cases h' with
    | ended => rfl
    | line some => simp [none] at some
  | line next _ ih =>
    cases h' with
    | ended none => simp [none] at next
    | line next' rest' =>
      obtain ⟨rfl, rfl⟩ : _ ∧ _ := by simpa [next] using next'
      rw [ih rest']

theorem yields_iff {c : Cursor} {ls : List Line} :
  Yields g direction c ls ↔ ls = c.lines g direction
  := by
  constructor
  · intro h
    apply h.unique (yields_lines c)
  · rintro rfl
    apply yields_lines

/-! ### The recursive walk -/

/-- What a line tells apart from its text. -/
structure Visit where
  identity : String
  depth : Nat
  cyclic : Bool
  deriving DecidableEq, Repr

/-- The visit that a line shows. -/
def Line.visit (l : Line) : Visit :=
  ⟨l.identity, l.depth, l.cyclic⟩

@[simp]
theorem visit_line (p : Pending) (cyclic : Bool) :
  (p.line cyclic).visit = ⟨p.identity, p.depth, cyclic⟩
  := rfl

/-- The visits of a walk in order, and all identities that are visited when it is over. -/
structure Trace where
  visits : List Visit
  visited : List String

theorem length_unpaid_le (g : Graph) (direction : Direction) {visited visited' : List String}
    (h : visited ⊆ visited') :
  (unpaid g direction visited').length ≤ (unpaid g direction visited).length
  := by
  rw [unpaid, unpaid, unvisited, unvisited, ← List.countP_eq_length_filter,
    ← List.countP_eq_length_filter]
  apply List.countP_mono_left
  intro e _ fresh
  simp only [List.contains_eq_mem, Bool.not_eq_true', decide_eq_false_iff_not] at fresh ⊢
  intro known
  exact fresh (h known)

mutual

/-- The walk from one identity. If it was visited before, the visit is cyclic and goes no
further. Otherwise it is marked as visited, and its neighbours are visited one level below. -/
def visit (g : Graph) (direction : Direction) (visited : List String) (x : String)
    (depth : Nat) : { t : Trace // visited ⊆ t.visited } :=
  if known : x ∈ visited then
    ⟨⟨[⟨x, depth, true⟩], visited⟩, List.Subset.refl visited⟩
  else
    let below := visitAll g direction (x :: visited) (g.neighbours direction x) (depth + 1)
    ⟨⟨⟨x, depth, false⟩ :: below.1.visits, below.1.visited⟩,
      fun _ hy => below.2 (List.mem_cons_of_mem x hy)⟩
termination_by ((unpaid g direction visited).length + 1, 0)
decreasing_by
  apply Prod.Lex.left
  apply Nat.lt_succ_of_le (length_unpaid_cons g direction (by simpa using known))

/-- The walks from some identities at one level, one after the other. -/
def visitAll (g : Graph) (direction : Direction) (visited : List String) (xs : List String)
    (depth : Nat) : { t : Trace // visited ⊆ t.visited } :=
  match xs with
  | [] => ⟨⟨[], visited⟩, List.Subset.refl visited⟩
  | x :: xs =>
    let ⟨first, grown⟩ := visit g direction visited x depth
    let rest := visitAll g direction first.visited xs depth
    ⟨⟨first.visits ++ rest.1.visits, rest.1.visited⟩, List.Subset.trans grown rest.2⟩
termination_by ((unpaid g direction visited).length + xs.length, 1)
decreasing_by
  · simp only [Prod.lex_def, List.length_cons]
    omega
  · apply Prod.Lex.left
    apply Nat.add_lt_add_of_le_of_lt (length_unpaid_le g direction grown)
    apply Nat.lt_succ_self

end

theorem visitAll_nil (visited : List String) (depth : Nat) :
  (visitAll g direction visited [] depth).1 = ⟨[], visited⟩
  := by
  rw [visitAll]

theorem visitAll_cons_of_mem {visited : List String} {x : String} (known : x ∈ visited)
    (xs : List String) (depth : Nat) :
  (visitAll g direction visited (x :: xs) depth).1 =
    let rest := (visitAll g direction visited xs depth).1
    ⟨⟨x, depth, true⟩ :: rest.visits, rest.visited⟩
  := by
  rw [visitAll, visit, dif_pos known]
  rfl

theorem visitAll_cons_of_not_mem {visited : List String} {x : String} (fresh : x ∉ visited)
    (xs : List String) (depth : Nat) :
  (visitAll g direction visited (x :: xs) depth).1 =
    let below := (visitAll g direction (x :: visited) (g.neighbours direction x) (depth + 1)).1
    let rest := (visitAll g direction below.visited xs depth).1
    ⟨⟨x, depth, false⟩ :: (below.visits ++ rest.visits), rest.visited⟩
  := by
  rw [visitAll, visit, dif_neg fresh]
  rfl

/-- Induction along the walks from some identities: past an identity that was visited, and
below a fresh identity and then past it. -/
theorem walk_induction (g : Graph) (direction : Direction)
    {motive : List String → List String → Nat → Prop}
    (done : ∀ visited depth, motive visited [] depth)
    (again : ∀ visited x xs depth, x ∈ visited → motive visited xs depth →
      motive visited (x :: xs) depth)
    (expand : ∀ visited x xs depth, x ∉ visited →
      motive (x :: visited) (g.neighbours direction x) (depth + 1) →
      motive (visitAll g direction (x :: visited) (g.neighbours direction x)
        (depth + 1)).1.visited xs depth →
      motive visited (x :: xs) depth)
    (visited xs : List String) (depth : Nat) :
  motive visited xs depth
  := by
  induction visited, xs, depth using visitAll.induct g direction
    (fun visited x depth => ∀ xs,
      motive (visit g direction visited x depth).1.visited xs depth →
      motive visited (x :: xs) depth) with
  | case1 visited x depth known xs rest =>
    rw [visit, dif_pos known] at rest
    apply again visited x xs depth known rest
  | case2 visited x depth fresh below xs rest =>
    rw [visit, dif_neg fresh] at rest
    apply expand visited x xs depth fresh below rest
  | case3 visited depth => apply done
  | case4 visited depth x xs first grown eq step rest =>
    apply step xs
    rw [eq]
    apply rest

theorem visitAll_singleton (visited : List String) (x : String) (depth : Nat) :
  (visitAll g direction visited [x] depth).1 = (visit g direction visited x depth).1
  := by
  rw [visitAll]
  obtain ⟨first, grown⟩ := visit g direction visited x depth
  simp only [visitAll_nil, List.append_nil]

/-! ### The stack simulates the walk -/

@[simp]
theorem Pending.map_identity_siblings (depth : Nat) (indent : String) (xs : List String) :
  (siblings depth indent xs).map Pending.identity = xs
  := by
  fun_induction siblings depth indent xs with
  | case1 => rfl
  | case2 x => rfl
  | case3 x y rest ih => rw [List.map_cons, ih]

theorem Pending.depth_siblings {depth : Nat} {indent : String} {xs : List String} {p : Pending}
    (h : p ∈ siblings depth indent xs) :
  p.depth = depth
  := by
  fun_induction siblings depth indent xs with
  | case1 => cases h
  | case2 x =>
    obtain rfl := List.mem_singleton.mp h
    rfl
  | case3 x y rest ih =>
    obtain rfl | later := List.mem_cons.mp h
    · rfl
    · apply ih later

/-- Entries of one level on top of a stack are listed as the walk visits them, and what lies
below them on the stack is listed with what the walk leaves visited. While the entries below one
of them are listed, the rest of its level waits on the stack. -/
theorem visits_lines_append (g : Graph) (direction : Direction) (visited xs : List String)
    (depth : Nat) (ps stack : List Pending) (names : ps.map Pending.identity = xs)
    (level : ∀ p ∈ ps, p.depth = depth) :
  ((⟨visited, ps ++ stack⟩ : Cursor).lines g direction).map Line.visit =
    (visitAll g direction visited xs depth).1.visits
      ++ ((⟨(visitAll g direction visited xs depth).1.visited, stack⟩ : Cursor).lines g
          direction).map Line.visit
  := by
  induction visited, xs, depth using walk_induction g direction generalizing ps stack with
  | done visited depth =>
    obtain rfl := List.map_eq_nil_iff.mp names
    rw [visitAll_nil]
    rfl
  | again visited x xs depth known ih =>
    obtain ⟨p, ps, rfl, rfl, rest⟩ := List.map_eq_cons_iff.mp names
    have deep := level p List.mem_cons_self
    rw [visitAll_cons_of_mem known, List.cons_append, Cursor.lines_cons_of_mem known,
      List.map_cons, ih ps stack rest fun q hq => level q (List.mem_cons_of_mem p hq),
      visit_line, deep]
    rfl
  | expand visited x xs depth fresh ihBelow ihRest =>
    obtain ⟨p, ps, rfl, rfl, rest⟩ := List.map_eq_cons_iff.mp names
    have deep := level p List.mem_cons_self
    have below := ihBelow (p.children g direction) (ps ++ stack)
      (Pending.map_identity_siblings _ _ _)
      fun q hq => deep ▸ Pending.depth_siblings hq
    rw [visitAll_cons_of_not_mem fresh, List.cons_append,
      Cursor.lines_cons_of_not_mem fresh, List.map_cons, below,
      ihRest ps stack rest fun q hq => level q (List.mem_cons_of_mem p hq), visit_line, deep]
    simp

/-- The first line of a listing is the bare identity that it starts from, and the others come from
the entries below that. -/
theorem listing_eq (g : Graph) (direction : Direction) (x : String) :
  listing g direction x
    = ⟨x, 0, false, x⟩
      :: (⟨[x], (root x).children g direction⟩ : Cursor).lines g direction
  := by
  have line : (root x).line false = ⟨x, 0, false, x⟩ := by
    simp [Pending.line, Pending.connector, root]
  rw [listing, Cursor.fresh, Cursor.lines_cons_of_not_mem List.not_mem_nil, List.append_nil, line]
  rfl

theorem visits_listing (g : Graph) (direction : Direction) (identity : String) :
  (listing g direction identity).map Line.visit
    = (visit g direction [] identity 0).1.visits
  := by
  have h := visits_lines_append g direction [] [identity] 0 [root identity] [] rfl
    (by simp [root])
  simpa [listing, Cursor.fresh, visitAll_singleton] using h

/-- The traversal of a built graph ends, in the given direction and from any identity, and
its lines show the visits of the recursive walk, which meets the neighbours of an identity in
increasing order. -/
theorem traversal_is_preorder (calls : List Graph.Call) (direction : Direction)
    (identity : String) :
  let g := Graph.build calls
  ∃ ls, Yields g direction (Cursor.fresh identity) ls
    ∧ (∀ ls', Yields g direction (Cursor.fresh identity) ls' → ls' = ls)
    ∧ listing g direction identity = ls
    ∧ ls.map Line.visit = (visit g direction [] identity 0).1.visits
    ∧ ∀ x, Increasing (g.neighbours direction x)
        ∧ ∀ y, y ∈ g.neighbours direction x ↔ g.Leads direction x y
  := by
  intro g
  use listing g direction identity
  and_intros
  · apply yields_lines
  · intro ls' h
    apply yields_iff.mp h
  · rfl
  · apply visits_listing
  · intro x
    constructor
    · apply Graph.increasing_neighbours
    · intro y
      apply Graph.mem_neighbours

end SourceAtlas.Tree
