import SourceAtlas.Declaration
import SourceAtlas.Ordered

/-!
# Graphs of identities

A graph has nodes, in the order in which they were added, and edges between them. An edge
is refused when it would start and end at the same node, when one of its ends is no node, and
when its two ends are already joined in that direction. What is read off a graph is sorted.

A traversal ends because a visit uses up the edges at the visited identity
(`length_unvisited_cons`).
-/

namespace SourceAtlas

/-- A directed graph over identities. -/
structure Graph where
  /-- The nodes in the order in which they were added. -/
  nodes : List String := []
  /-- The edges in the order in which they were added. -/
  links : List Edge := []
  deriving Repr

/-- The two ways to follow edges. -/
inductive Direction where
  /-- From an identity to what it refers to. -/
  | dependencies
  /-- From an identity to what refers to it. -/
  | dependents
  deriving DecidableEq, Repr

/-- The word for a direction. -/
def Direction.word : Direction → String
  | dependencies => "dependencies"
  | dependents => "dependents"

namespace Graph

/-- The graph without nodes. -/
def empty : Graph := {}

/-- `x` is a node. -/
def contains (g : Graph) (x : String) : Bool :=
  g.nodes.contains x

/-- Adds the node `x`, unless it is there, and tells its place in the order of addition. -/
def addNode (g : Graph) (x : String) : Nat × Graph :=
  match g.nodes.idxOf? x with
  | some place => (place, g)
  | none => (g.nodes.length, { g with nodes := g.nodes ++ [x] })

/-- Some edge leads from `x` to `y`. -/
def joins (g : Graph) (x y : String) : Bool :=
  g.links.any fun e => e.source == x && e.target == y

/-- The edge may be added. -/
def admits (g : Graph) (e : Edge) : Bool :=
  e.source != e.target && g.contains e.source && g.contains e.target
    && !g.joins e.source e.target

/-- Adds an edge if the graph admits it, and tells whether it did. -/
def addEdge (g : Graph) (e : Edge) : Bool × Graph :=
  if g.admits e then (true, { g with links := g.links ++ [e] }) else (false, g)

/-- The nodes in order. -/
def identities (g : Graph) : List String :=
  Ordered.ofList g.nodes

/-- What `x` points at, in order. -/
def dependencies (g : Graph) (x : String) : List String :=
  Ordered.ofList ((g.links.filter (·.source == x)).map Edge.target)

/-- What points at `x`, in order. -/
def dependents (g : Graph) (x : String) : List String :=
  Ordered.ofList ((g.links.filter (·.target == x)).map Edge.source)

/-- The neighbours of `x` in a direction, in order. -/
def neighbours (g : Graph) : Direction → String → List String
  | .dependencies, x => g.dependencies x
  | .dependents, x => g.dependents x

/-- The edges in order. -/
def edges (g : Graph) : List Edge :=
  Ordered.ofList g.links

/-- Every node with what it points at. -/
def adjacency (g : Graph) : List (String × List String) :=
  g.identities.map fun x => (x, (g.edges.filter (·.source == x)).map Edge.target)

/-- `x` is an end of no edge. -/
def isIsolated (g : Graph) (x : String) : Bool :=
  !g.links.any fun e => e.source == x || e.target == x

/-- Counts of nodes, edges, and nodes without edges. -/
structure Stats where
  nodes : Nat
  edges : Nat
  isolated : Nat
  deriving DecidableEq, Repr

/-- The counts of a graph. -/
def stats (g : Graph) : Stats where
  nodes := g.nodes.length
  edges := g.links.length
  isolated := (g.nodes.filter g.isIsolated).length

end Graph

/-! ### Edges and visits -/

/-- The edges whose end by `key` is not visited. -/
def unvisited (key : Edge → String) (links : List Edge) (visited : List String) : List Edge :=
  links.filter fun e => !visited.contains (key e)

/-- A visit takes away the edges with that end. -/
theorem length_unvisited_cons (key : Edge → String) {visited : List String} {x : String}
    (new : visited.contains x = false) (links : List Edge) :
  (unvisited key links (x :: visited)).length + (links.filter (key · == x)).length
    = (unvisited key links visited).length
  := by
  unfold unvisited
  induction links with
  | nil => simp
  | cons e es ih =>
    by_cases same : key e = x
    · simp_all
      omega
    · by_cases known : key e ∈ visited
      · simp_all
      · simp_all
        omega

end SourceAtlas
