import SourceAtlas.FileTree
import SourceAtlas.Tree
import SourceAtlas.View

/-!
# Questions about a seed

A seed is what the user types to name a unit or a type: an identity, a path, a file stem or a
simple name. A question first looks the seed up and then answers with a listing or a diagram.
When the seed names nothing, the answer says so and offers some known identities.
-/

namespace SourceAtlas

namespace Seed

/-- The only member of a list. -/
def only? {α : Type} : List α → Option α
  | [x] => some x
  | _ => none

/-- The error for a seed that names nothing, with the first known identities as hints. -/
def missing (seed : String) (known : List String) (hintLimit : Nat) : Error :=
  .seedNotFound seed (known.take hintLimit)

/-- The identity of the file that the seed is a path to, if it lies below the root. -/
def byPath? (t : FileTree) (root : Path) (seed : String) : Option String := do
  Path.identity? (← t.canonical? root) (← t.canonical? ⟨seed⟩)

/-- The names in the seed, read as a path, joined by slashes. -/
def byNames? (seed : String) : Option String :=
  match Path.names ⟨seed⟩ with
  | [] => none
  | names => some (Path.joinNames names)

/-- The only node with the file stem of the seed. -/
def byStem? (g : Graph) (seed : String) : Option String :=
  only? (g.identities.filter fun x => simpleName x == simpleName seed)

/-- The unit that a seed names. In this order, the seed is taken for an identity, a path to
an existing file, a path below the root, and a file stem of one unit only. -/
def findUnit (t : FileTree) (g : Graph) (root : Path) (seed : String) (hintLimit : Nat) :
    Except Error String :=
  let known (x : String) : Bool := g.contains x
  let found := ((some seed).filter known)
    <|> ((byPath? t root seed).filter known)
    <|> ((byNames? seed).filter known)
    <|> byStem? g seed
  match found with
  | some identity => .ok identity
  | none => .error (missing seed g.identities hintLimit)

/-- The first type declared by the file that a path leads to. -/
def byFile? (t : FileTree) (c : Catalog) (p : Path) : Option String := do
  let place ← (t.resolve p).toOption
  let file ← c.files.find? fun file => (t.resolve file).toOption == some place
  c.identityForFile? file

/-- The only type with the given simple name. -/
def bySimpleName? (c : Catalog) (name : String) : Option String :=
  only? ((c.types.filter (·.name == name)).map TypeInfo.fullName)

/-- The type that a seed names. In this order, the seed is taken for a full name, a path to a
file, a path to a file seen from the root, and a simple name of one type only. -/
def findType (t : FileTree) (c : Catalog) (root : Path) (seed : String) (hintLimit : Nat) :
    Except Error String :=
  let found := ((some seed).filter c.contains)
    <|> byFile? t c ⟨seed⟩
    <|> byFile? t c (root.join ⟨seed⟩)
    <|> bySimpleName? c seed
  match found with
  | some identity => .ok identity
  | none => .error (missing seed c.identities hintLimit)

end Seed

/-- The answer to a question for a tree. -/
structure TreeAnswer where
  found : Bool
  seed : String
  identity : Option String
  direction : Direction
  lines : List String
  hints : List String
  deriving DecidableEq, Repr

namespace TreeAnswer

/-- The lines as one text. -/
def text (a : TreeAnswer) : String :=
  "\n".intercalate a.lines

/-- The answer, or the error that it stands for. -/
def ensureFound (a : TreeAnswer) : Except Error TreeAnswer :=
  if a.found then .ok a else .error (.seedNotFound a.seed a.hints)

end TreeAnswer

/-- The answer to a question for a focused diagram. -/
structure FocusAnswer where
  found : Bool
  seed : String
  identity : Option String
  roundSizes : List Nat
  stabilized : Bool
  view : View
  hints : List String
  deriving DecidableEq, Repr

namespace FocusAnswer

/-- The answer for a seed that names nothing. -/
def missing (seed : String) (error : Error) : FocusAnswer where
  found := false
  seed := seed
  identity := none
  roundSizes := []
  stabilized := false
  view := View.empty
  hints := error.hints

/-- The answer for a seed that names the seed of a subgraph. -/
def ofSubgraph (seed : String) (s : Subgraph) (c : Option Catalog) : FocusAnswer where
  found := true
  seed := seed
  identity := some s.seed
  roundSizes := s.roundSizes
  stabilized := s.stabilized
  view := s.view c
  hints := []

/-- The answer, or the error that it stands for. -/
def ensureFound (a : FocusAnswer) : Except Error FocusAnswer :=
  if a.found then .ok a else .error (.seedNotFound a.seed a.hints)

end FocusAnswer

/-- Counts over both kinds of analysis. -/
structure StatsAnswer where
  units : Nat
  referenceEdges : Nat
  isolatedUnits : Nat
  types : Nat
  relationships : Nat
  /-- The number of types in each package, in the order of packages. -/
  packages : List (String × Nat)
  deriving DecidableEq, Repr

namespace Query

/-- The tree of a graph from the unit that a seed names. -/
def tree (t : FileTree) (g : Graph) (root : Path) (seed : String) (direction : Direction)
    (hintLimit : Nat) : TreeAnswer :=
  match Seed.findUnit t g root seed hintLimit with
  | .ok identity =>
    { found := true
      seed := seed
      identity := some identity
      direction := direction
      lines := Tree.texts g direction identity
      hints := [] }
  | .error e =>
    { found := false
      seed := seed
      identity := none
      direction := direction
      lines := []
      hints := e.hints }

/-- The focused diagram around the unit that a seed names. -/
def focusUnits (t : FileTree) (g : Graph) (root : Path) (seed : String)
    (rounds hintLimit : Nat) : FocusAnswer :=
  match Seed.findUnit t g root seed hintLimit with
  | .ok identity => .ofSubgraph seed (Focus.expand g.focusRelations identity rounds) none
  | .error e => .missing seed e

/-- The focused diagram around the type that a seed names. -/
def focusTypes (t : FileTree) (c : Catalog) (r : Resolver) (root : Path) (seed : String)
    (rounds hintLimit : Nat) : FocusAnswer :=
  match Seed.findType t c root seed hintLimit with
  | .ok identity =>
    .ofSubgraph seed (Focus.expand (c.focusRelations r identity) identity rounds) (some c)
  | .error e => .missing seed e

/-- The counts of a graph and a catalog. -/
def stats (g : Graph) (c : Catalog) : StatsAnswer where
  units := g.stats.nodes
  referenceEdges := g.stats.edges
  isolatedUnits := g.stats.isolated
  types := c.types.length
  relationships := c.relationships.length
  packages := c.packages.map fun (package, types) => (package, types.length)

end Query

end SourceAtlas
