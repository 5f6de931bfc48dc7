import SourceAtlas.Focus

/-!
# Diagrams

A view is what a diagram shows: nodes, some of them with the package and kind of a declared
type, and edges. An edge may end at something that was never analysed; it then gets a plain
node. The views are the whole graph, what a seed reaches, the class diagram of a catalog and
a focused subgraph.
-/

namespace SourceAtlas

/-- A node of a diagram. -/
structure ViewNode where
  id : String
  label : String
  package : Option String := none
  /-- The kind of a declared type; files and unresolved names have none. -/
  kind : Option TypeKind := none
  isSeed : Bool := false
  deriving DecidableEq, Repr

namespace ViewNode

/-- The node of a file or of a name that is not declared. -/
def plain (id : String) : ViewNode :=
  { id := id, label := id }

/-- The node of a declared type. -/
def ofType (info : TypeInfo) : ViewNode where
  id := info.fullName
  label := if info.kind.isInterface then "«interface»\n" ++ info.name else info.name
  package := some info.package
  kind := some info.kind

theorem map_id_plain (xs : List String) :
  (xs.map plain).map ViewNode.id = xs
  := by
  rw [List.map_map]
  apply List.map_id

/-- The node is drawn as an interface. -/
def isInterface (n : ViewNode) : Bool :=
  n.kind.any TypeKind.isInterface

end ViewNode

/-- The content of a diagram. -/
structure View where
  nodes : List ViewNode := []
  edges : List Edge := []
  deriving DecidableEq, Repr

namespace View

/-- The view that shows nothing. -/
def empty : View := {}

/-- The first node with the given id. -/
def node? (v : View) (id : String) : Option ViewNode :=
  v.nodes.find? (·.id == id)

/-- The first node that is flagged as seed. -/
def seed? (v : View) : Option ViewNode :=
  v.nodes.find? (·.isSeed)

end View

/-- Every node and every edge. -/
def Graph.fullView (g : Graph) : View where
  nodes := g.identities.map ViewNode.plain
  edges := g.edges

/-! ### First occurrences -/

section Fresh

variable {α : Type} [DecidableEq α]

/-- The members of a list that are not among `seen`, each where it first occurs. -/
def fresh (seen : List α) : List α → List α
  | [] => []
  | x :: xs => if seen.contains x then fresh seen xs else x :: fresh (x :: seen) xs

@[simp]
theorem mem_fresh {seen xs : List α} {x : α} :
  x ∈ fresh seen xs ↔ x ∈ xs ∧ x ∉ seen
  := by
  fun_induction fresh seen xs with
  | case1 seen => simp
  | case2 seen y ys known ih => grind
  | case3 seen y ys new ih => grind

theorem nodup_fresh (seen xs : List α) :
  (fresh seen xs).Nodup
  := by
  fun_induction fresh seen xs with
  | case1 seen => apply List.nodup_nil
  | case2 seen y ys known ih => apply ih
  | case3 seen y ys new ih =>
    apply List.nodup_cons.mpr
    constructor
    · simp
    · apply ih

end Fresh

/-! ### What a seed reaches -/

namespace Reach

/-- What comes to light pays for its place on the stack with the edges that lead to it. -/
theorem length_fresh {links : List Edge} (visited xs : List String)
    (met : ∀ x ∈ xs, ∃ e ∈ links, e.target = x) :
  (fresh visited xs).length + (unvisited Edge.target links (visited ++ fresh visited xs)).length
    ≤ (unvisited Edge.target links visited).length
  := by
  fun_induction fresh visited xs with
  | case1 visited => simp
  | case2 visited x xs known ih => apply ih fun y hy => met y (List.mem_cons_of_mem x hy)
  | case3 visited x xs new ih =>
    have rest := ih fun y hy => met y (List.mem_cons_of_mem x hy)
    have paid := length_unvisited_cons Edge.target (by simpa using new) links
    obtain ⟨e, he, leads⟩ := met x List.mem_cons_self
    have leading : 0 < (links.filter (·.target == x)).length :=
      List.length_pos_of_mem (List.mem_filter.mpr ⟨he, by simpa using leads⟩)
    have same : unvisited Edge.target links (visited ++ x :: fresh (x :: visited) xs)
        = unvisited Edge.target links (x :: visited ++ fresh (x :: visited) xs) := by
      unfold unvisited
      congr 1
      funext e
      simp [or_left_comm]
    rw [same, List.length_cons]
    omega

/-- The drawn edges from an identity to all that it depends on. -/
def edgesFrom (g : Graph) (x : String) : List Edge :=
  (g.dependencies x).map fun y => ⟨x, y, .referencing⟩

/-- A search under way: the view of what has come to light, and the identities that are still
to be expanded. -/
structure Search where
  view : View
  stack : List String
  deriving DecidableEq, Repr

namespace Search

/-- The search from a seed before its first step. -/
def start (seed : String) : Search where
  view := { nodes := [{ ViewNode.plain seed with isSeed := true }] }
  stack := [seed]

/-- The identities that have come to light, in the order in which they did. -/
def visited (s : Search) : List String :=
  s.view.nodes.map ViewNode.id

/-- Expands an identity, with the given stack below it: the edges that leave it are drawn, and
what they lead to comes to light. An identity is put on the stack when it comes to light. -/
def expand (g : Graph) (s : Search) (x : String) (stack : List String) : Search :=
  let new := fresh s.visited (g.dependencies x)
  { view :=
      { nodes := s.view.nodes ++ new.map ViewNode.plain
        edges := s.view.edges ++ edgesFrom g x }
    stack := new ++ stack }

/-- Expands the identity on top of the stack. -/
def step? (g : Graph) (s : Search) : Option Search :=
  match s.stack with
  | [] => none
  | x :: stack => some (s.expand g x stack)

@[simp]
theorem visited_expand (g : Graph) (s : Search) (x : String) (stack : List String) :
  (s.expand g x stack).visited = s.visited ++ fresh s.visited (g.dependencies x)
  := by
  rw [visited, expand, List.map_append, ViewNode.map_id_plain]
  rfl

theorem step?_decreases {g : Graph} {s s' : Search} (h : s.step? g = some s') :
  s'.stack.length + (unvisited Edge.target g.links s'.visited).length
    < s.stack.length + (unvisited Edge.target g.links s.visited).length
  := by
  unfold step? at h
  split at h
  · contradiction
  · rename_i x stack top
    obtain rfl := Option.some.inj h
    have met : ∀ y ∈ g.dependencies x, ∃ e ∈ g.links, e.target = y := by
      intro y hy
      obtain ⟨e, he, rfl⟩ := List.mem_map.mp (Ordered.mem_of_mem_ofList hy)
      exact ⟨e, (List.mem_filter.mp he).1, rfl⟩
    have paid := length_fresh s.visited (g.dependencies x) met
    rw [visited_expand, expand, top, List.length_append, List.length_cons]
    omega

/-- The search when nothing is left to expand. -/
def run (g : Graph) (s : Search) : Search :=
  match _ : s.step? g with
  | none => s
  | some s' => s'.run g
termination_by s.stack.length + (unvisited Edge.target g.links s.visited).length
decreasing_by
  rename_i step
  apply step?_decreases step

end Search

end Reach

/-- What a seed reaches along dependencies. All edges count as references. -/
def Graph.reachableView (g : Graph) (seed : String) : View :=
  let found := ((Reach.Search.start seed).run g).view
  { found with edges := Ordered.sort found.edges }

/-! ### Class diagrams -/

namespace Catalog

/-- The edges of the relationships, each target resolved in the package of the declaring
type. -/
def resolvedEdges (c : Catalog) (r : Resolver) : List (Edge × Resolution) :=
  c.relationships.filterMap fun s =>
    (c.packageOf? s.source).map fun package =>
      let resolution := r.resolve s.target package
      (⟨s.source, resolution.identity, s.kind⟩, resolution)

/-- The class diagram: every declared type, and a plain node for every target that is not
declared. -/
def classView (c : Catalog) (r : Resolver) : View :=
  let resolved := c.resolvedEdges r
  let synthetic := Ordered.ofList ((resolved.filter fun (_, resolution) =>
    !resolution.isResolved || !c.contains resolution.identity).map fun (e, _) => e.target)
  { nodes := c.types.map ViewNode.ofType ++ synthetic.map ViewNode.plain
    edges := fresh [] (resolved.map Prod.fst) }

end Catalog

/-! ### Focused subgraphs -/

namespace Subgraph

/-- The node of a member: with its type data if the catalog has them. -/
def viewNode (s : Subgraph) (c : Option Catalog) (id : String) : ViewNode :=
  let node := match c.bind (·.get? id) with
    | some info => ViewNode.ofType info
    | none => ViewNode.plain id
  { node with isSeed := id == s.seed }

/-- The view of a subgraph. -/
def view (s : Subgraph) (c : Option Catalog) : View where
  nodes := s.members.map (s.viewNode c)
  edges := s.edges

end Subgraph

end SourceAtlas
