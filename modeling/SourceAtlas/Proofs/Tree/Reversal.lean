import SourceAtlas.Proofs.Tree.Spanning

/-!
# Listings of reversed graphs

Calls that add every edge the other way round build the graph with all edges reversed, since an edge
is admitted exactly where the reversed one is (`build_reversed`). Following the edges of a reversed
graph in one direction is following those of the graph in the other, so the listings agree line by
line. What a listing shows are the identities that can be reached (`mem_listing_iff`), and those are
connected back to the root in the other direction.
-/

namespace SourceAtlas

/-- The edge between the same ends that leads the other way. -/
def Edge.reversed (e : Edge) : Edge where
  source := e.target
  target := e.source
  kind := e.kind

/-- The other direction. -/
def Direction.opposite : Direction → Direction
  | dependencies => dependents
  | dependents => dependencies

namespace Graph

variable {g : Graph} {direction : Direction} {x y : String}

/-! ### Reversed graphs -/

/-- The same call, with the ends of an edge swapped. -/
def Call.reversed : Call → Call
  | node x => node x
  | edge e => edge e.reversed

/-- The graph with all edges reversed. -/
def reversed (g : Graph) : Graph where
  nodes := g.nodes
  links := g.links.map Edge.reversed

theorem joins_reversed (g : Graph) (x y : String) :
  g.reversed.joins x y = g.joins y x
  := by
  rw [joins, joins, reversed, List.any_map]
  congr 1
  funext e
  apply Bool.and_comm

/-- An edge is admitted exactly where the reversed one is. -/
theorem admits_reversed (g : Graph) (e : Edge) :
  g.reversed.admits e.reversed = g.admits e
  := by
  rw [Bool.eq_iff_iff, admits_iff, admits_iff, ← joins_iff, ← joins_iff, joins_reversed]
  constructor
  · rintro ⟨ne, target, source, single⟩
    exact ⟨ne.symm, source, target, single⟩
  · rintro ⟨ne, source, target, single⟩
    exact ⟨ne.symm, target, source, single⟩

theorem perform_reversed (g : Graph) (call : Call) :
  g.reversed.perform call.reversed = (g.perform call).reversed
  := by
  cases call with
  | node x =>
    by_cases known : x ∈ g.nodes
    · rw [Call.reversed, perform, perform, addNode_of_mem known, addNode_of_mem]
      apply known
    · rw [Call.reversed, perform, perform, addNode_of_not_mem known, addNode_of_not_mem]
      · rfl
      · apply known
  | edge e =>
    have alike := admits_reversed g e
    by_cases admitted : g.admits e = true
    · rw [Call.reversed, perform, perform, addEdge_of_admits admitted,
        addEdge_of_admits (alike.trans admitted), reversed, reversed, List.map_append]
      rfl
    · rw [Call.reversed, perform, perform, addEdge_of_not_admits admitted, addEdge_of_not_admits]
      rwa [alike]

theorem foldl_perform_reversed (g : Graph) (calls : List Call) :
  (calls.map Call.reversed).foldl perform g.reversed = (calls.foldl perform g).reversed
  := by
  induction calls generalizing g with
  | nil => rfl
  | cons call calls ih =>
    rw [List.map_cons, List.foldl_cons, List.foldl_cons, perform_reversed, ih]

/-- Reversed calls build the reversed graph. -/
theorem build_reversed (calls : List Call) :
  build (calls.map Call.reversed) = (build calls).reversed
  := foldl_perform_reversed empty calls

theorem neighbours_reversed (g : Graph) (direction : Direction) (x : String) :
  g.reversed.neighbours direction x = g.neighbours direction.opposite x
  := by
  cases direction with
  | dependencies =>
    rw [neighbours, dependencies, reversed, List.filter_map, List.map_map]
    rfl
  | dependents =>
    rw [neighbours, dependents, reversed, List.filter_map, List.map_map]
    rfl

theorem leads_opposite :
  g.Leads direction.opposite x y ↔ g.Leads direction y x
  := by
  cases direction with
  | dependencies => rfl
  | dependents => rfl

/-- A path leads back when its edges are followed in the other direction. -/
theorem reachable_opposite (g : Graph) (direction : Direction) {x y : String} :
  g.Reachable direction.opposite x y ↔ g.Reachable direction y x
  := by
  have swapped : g.Leads direction.opposite = Function.swap (g.Leads direction) := by
    funext x y
    apply propext leads_opposite
  rw [Reachable, swapped]
  apply Relation.reflTransGen_swap

end Graph

namespace Tree

variable {g g' : Graph} {direction direction' : Direction} {x y : String}

/-! ### Listings -/

/-- Lines depend on the neighbours only. -/
theorem lines_congr (same : ∀ x, g.neighbours direction x = g'.neighbours direction' x)
    (visited : List String) (stack : List Pending) :
  (⟨visited, stack⟩ : Cursor).lines g direction = (⟨visited, stack⟩ : Cursor).lines g' direction'
  := by
  induction visited, stack using Cursor.induction g direction with
  | ended visited => rw [Cursor.lines_nil, Cursor.lines_nil]
  | again visited p stack known ih =>
    rw [Cursor.lines_cons_of_mem known, Cursor.lines_cons_of_mem known, ih]
  | expand visited p stack fresh ih =>
    have children : p.children g direction = p.children g' direction' := by
      rw [Pending.children, Pending.children, same]
    rw [Cursor.lines_cons_of_not_mem fresh, Cursor.lines_cons_of_not_mem fresh, ih, children]

theorem listing_reversed (g : Graph) (direction : Direction) (x : String) :
  listing g.reversed direction x = listing g direction.opposite x
  := by
  apply lines_congr
  apply Graph.neighbours_reversed

/-- What is listed, on cyclic lines or others, is what can be reached. -/
theorem mem_listing_iff :
  (∃ l ∈ listing g direction x, l.identity = y) ↔ g.Reachable direction x y
  := by
  obtain ⟨below, visited', walk, unfolds⟩ := unfolding_listing g direction x
  constructor
  · rintro ⟨l, hl, rfl⟩
    have visited := List.mem_map_of_mem (f := Line.visit) hl
    rw [walk] at visited
    obtain root | visited := List.mem_cons.mp visited
    · rw [show l.identity = x from congrArg Visit.identity root]
      apply Relation.ReflTransGen.refl
    · apply unfolds.reachable _ _ visited
      intro z hz
      apply Relation.ReflTransGen.single (Graph.mem_neighbours.mp hz)
  · intro path
    obtain ⟨v, hv, rfl⟩ := List.mem_map.mp ((unfolds.mem_expanded_iff y).mpr path)
    have visited := List.mem_of_mem_filter hv
    rw [← walk] at visited
    obtain ⟨l, hl, rfl⟩ := List.mem_map.mp visited
    exact ⟨l, hl, rfl⟩

/-- The listing of a built graph in either direction is, line by line, the listing in the other
direction of the graph that is built by the same calls with the ends of all edges swapped. An
identity is listed below a root exactly if the root is listed below that identity in the other
direction. -/
theorem listing_of_reversed_calls (calls : List Graph.Call) :
  let g := Graph.build calls
  let g' := Graph.build (calls.map Graph.Call.reversed)
  (∀ x, listing g .dependents x = listing g' .dependencies x)
    ∧ (∀ x, listing g .dependencies x = listing g' .dependents x)
    ∧ ∀ x y, (∃ l ∈ listing g .dependencies x, l.identity = y)
        ↔ ∃ l ∈ listing g .dependents y, l.identity = x
  := by
  intro g g'
  have built : g' = g.reversed := Graph.build_reversed calls
  and_intros
  · intro x
    rw [built, listing_reversed]
    rfl
  · intro x
    rw [built, listing_reversed]
    rfl
  · intro x y
    rw [mem_listing_iff, mem_listing_iff]
    apply Graph.reachable_opposite g .dependents

end Tree

end SourceAtlas
