import SourceAtlas.Graph

/-!
# Indented listings of a graph

The tree of a graph from a root lists the root, below it its neighbours, below each of these
their neighbours, and so on. One set of visited identities serves the whole listing: an
identity is expanded where it is met first, and a later occurrence is a leaf that is marked as
cyclic. Hence the listing is finite, also for graphs with cycles.

The listing is produced line by line from a stack of pending entries. It ends because every entry
that is taken off the stack either is a leaf or expands an identity for the first time, and then
the entries that are put on the stack are paid for by the edges that leave that identity.
-/

namespace SourceAtlas.Tree

/-- One line of a listing. -/
structure Line where
  identity : String
  /-- The distance from the root of the listing. -/
  depth : Nat
  /-- The identity was expanded on an earlier line. -/
  cyclic : Bool
  /-- The whole line, with indentation, connector and mark. -/
  text : String
  deriving DecidableEq, Repr

/-- An entry that is still to be listed. -/
structure Pending where
  identity : String
  depth : Nat
  /-- The columns that stand before the connector. -/
  indent : String
  /-- No sibling follows. -/
  isLast : Bool
  deriving DecidableEq, Repr

/-- The connector of an entry that siblings follow. -/
def branch : String := "├── "

/-- The connector of the last sibling. -/
def lastBranch : String := "└── "

/-- The column below an entry that siblings follow. -/
def pipe : String := "│   "

/-- The column below the last sibling. -/
def space : String := "    "

/-- The mark of an identity that was expanded before. -/
def cyclicMark : String := " (cyclic reference)"

namespace Pending

/-- The sign between the indentation and the identity. -/
def connector (p : Pending) : String :=
  if p.depth = 0 then "" else if p.isLast then lastBranch else branch

/-- The indentation of the entries below this one. -/
def childIndent (p : Pending) : String :=
  if p.depth = 0 then "" else p.indent ++ (if p.isLast then space else pipe)

/-- The line of an entry. -/
def line (p : Pending) (cyclic : Bool) : Line where
  identity := p.identity
  depth := p.depth
  cyclic := cyclic
  text := p.indent ++ p.connector ++ p.identity ++ (if cyclic then cyclicMark else "")

/-- Entries for siblings, of which only the last is flagged as last. -/
def siblings (depth : Nat) (indent : String) : List String → List Pending
  | [] => []
  | [x] => [⟨x, depth, indent, true⟩]
  | x :: y :: rest => ⟨x, depth, indent, false⟩ :: siblings depth indent (y :: rest)

/-- The entries below this one. -/
def children (g : Graph) (direction : Direction) (p : Pending) : List Pending :=
  siblings (p.depth + 1) p.childIndent (g.neighbours direction p.identity)

theorem length_siblings (depth : Nat) (indent : String) (xs : List String) :
  (siblings depth indent xs).length = xs.length
  := by
  fun_induction siblings depth indent xs <;> simp_all

end Pending

/-- The end of an edge from which it is followed. -/
def foot : Direction → Edge → String
  | .dependencies, e => e.source
  | .dependents, e => e.target

/-- The edges that leave an identity that was not visited yet. -/
def unpaid (g : Graph) (direction : Direction) (visited : List String) : List Edge :=
  unvisited (foot direction) g.links visited

theorem length_neighbours (g : Graph) (direction : Direction) (x : String) :
  (g.neighbours direction x).length ≤ (g.links.filter (foot direction · == x)).length
  := by
  cases direction
  · have := Ordered.length_ofList ((g.links.filter (·.source == x)).map Edge.target)
    simpa [Graph.neighbours, Graph.dependencies, foot] using this
  · have := Ordered.length_ofList ((g.links.filter (·.target == x)).map Edge.source)
    simpa [Graph.neighbours, Graph.dependents, foot] using this

/-- A visit pays for the entries below the visited identity. -/
theorem length_unpaid_cons (g : Graph) (direction : Direction) {visited : List String}
    {x : String} (fresh : visited.contains x = false) :
  (unpaid g direction (x :: visited)).length + (g.neighbours direction x).length
    ≤ (unpaid g direction visited).length
  := by
  have below := length_neighbours g direction x
  have paid := length_unvisited_cons (foot direction) fresh g.links
  unfold unpaid
  omega

/-- The entry that a listing starts from. -/
def root (identity : String) : Pending :=
  ⟨identity, 0, "", true⟩

/-- What a listing has visited and has still to list. -/
structure Cursor where
  visited : List String
  stack : List Pending
  deriving DecidableEq, Repr

namespace Cursor

/-- The cursor of a listing that starts at an identity. -/
def fresh (identity : String) : Cursor :=
  ⟨[], [root identity]⟩

/-- The next line of a listing, and the cursor behind it. -/
def next? (g : Graph) (direction : Direction) : Cursor → Option (Line × Cursor)
  | ⟨_, []⟩ => none
  | ⟨visited, p :: stack⟩ =>
    if visited.contains p.identity then some (p.line true, ⟨visited, stack⟩)
    else some (p.line false, ⟨p.identity :: visited, p.children g direction ++ stack⟩)

theorem next?_decreases {g : Graph} {direction : Direction} {c c' : Cursor} {l : Line}
    (h : c.next? g direction = some (l, c')) :
  c'.stack.length + (unpaid g direction c'.visited).length
    < c.stack.length + (unpaid g direction c.visited).length
  := by
  obtain ⟨visited, stack⟩ := c
  cases stack with
  | nil => cases h
  | cons p stack =>
    rw [next?] at h
    split at h
    · obtain ⟨rfl, rfl⟩ := Prod.mk.inj (Option.some.inj h)
      simp
    · rename_i fresh
      obtain ⟨rfl, rfl⟩ := Prod.mk.inj (Option.some.inj h)
      have paid := length_unpaid_cons g direction (Bool.not_eq_true _ ▸ fresh)
      simp only [List.length_append, List.length_cons, Pending.children, Pending.length_siblings]
      omega

/-- The lines that a listing has still to give. -/
def lines (g : Graph) (direction : Direction) (c : Cursor) : List Line :=
  match _ : c.next? g direction with
  | none => []
  | some (l, c') => l :: c'.lines g direction
termination_by c.stack.length + (unpaid g direction c.visited).length
decreasing_by
  rename_i step
  apply next?_decreases step

end Cursor

/-- The listing of a graph from an identity. -/
def listing (g : Graph) (direction : Direction) (identity : String) : List Line :=
  (Cursor.fresh identity).lines g direction

/-- The texts of a listing. -/
def texts (g : Graph) (direction : Direction) (identity : String) : List String :=
  (listing g direction identity).map Line.text

/-- A listing as one text. -/
def display (g : Graph) (direction : Direction) (identity : String) : String :=
  "\n".intercalate (texts g direction identity)

end SourceAtlas.Tree
