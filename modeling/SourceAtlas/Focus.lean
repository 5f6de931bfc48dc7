import SourceAtlas.Catalog
import SourceAtlas.Graph

/-!
# Focused neighbourhoods

Starting from a seed, a round looks at every relation once and takes in the targets of
members and the sources that point at members, where membership is read as it stood when the
round began. After a bounded number of rounds, or when a round adds nothing, the members and
the edges between them form the focused subgraph.
-/

namespace SourceAtlas

/-- A relation as the rounds see it. -/
structure FocusRelation where
  kind : RelationKind
  source : String
  /-- The target after resolution. -/
  target : String
  /-- The target as it is written, when it had to be resolved. A member that ends with it
  counts as pointed at. -/
  written : Option String := none
  deriving DecidableEq, Repr

namespace FocusRelation

/-- The edge that the relation stands for. -/
def edge (r : FocusRelation) : Edge :=
  ⟨r.source, r.target, r.kind⟩

/-- The relation points at one of the members. -/
def pointsInto (r : FocusRelation) (members : List String) : Bool :=
  members.contains r.target ||
    match r.written with
    | some name => members.any fun m => name.toList.isSuffixOf m.toList
    | none => false

/-- What the relation adds to the members. -/
def adds (r : FocusRelation) (members : List String) : List String :=
  (if members.contains r.source && !members.contains r.target then [r.target] else [])
    ++ (if r.pointsInto members && !members.contains r.source then [r.source] else [])

end FocusRelation

/-- The members around a seed, with the edges between them. -/
structure Subgraph where
  seed : String
  /-- The members in order. -/
  members : List String
  /-- The edges between members, in order. -/
  edges : List Edge
  /-- The number of members after each round. -/
  roundSizes : List Nat
  /-- The last round added nothing. -/
  stabilized : Bool
  deriving DecidableEq, Repr

namespace Focus

/-- The identities that one round adds, in order. -/
def added (relations : List FocusRelation) (members : List String) : List String :=
  Ordered.ofList (relations.flatMap (·.adds members))

/-- The outcome of some rounds: the members, their number after each round, and whether the
last round added nothing. -/
structure Growth where
  members : List String
  roundSizes : List Nat
  stabilized : Bool
  deriving DecidableEq, Repr

/-- At most `rounds` rounds, starting from the given members. -/
def grow (relations : List FocusRelation) : (rounds : Nat) → (members : List String) → Growth
  | 0, members => ⟨members, [], false⟩
  | rounds + 1, members =>
    match added relations members with
    | [] => ⟨members, [members.length], true⟩
    | fresh =>
      let members := Ordered.union fresh members
      let rest := grow relations rounds members
      { rest with roundSizes := members.length :: rest.roundSizes }

/-- The edges of the relations between members, in order. -/
def edgesWithin (relations : List FocusRelation) (members : List String) : List Edge :=
  Ordered.ofList ((relations.filter fun r =>
    members.contains r.source && members.contains r.target).map FocusRelation.edge)

/-- The subgraph around a seed after at most `rounds` rounds. -/
def expand (relations : List FocusRelation) (seed : String) (rounds : Nat) : Subgraph :=
  let growth := grow relations rounds [seed]
  { seed := seed
    members := growth.members
    edges := edgesWithin relations growth.members
    roundSizes := growth.roundSizes
    stabilized := growth.stabilized }

end Focus

/-- The relations of a graph: its edges in order. -/
def Graph.focusRelations (g : Graph) : List FocusRelation :=
  g.edges.map fun e => { kind := e.kind, source := e.source, target := e.target }

/-- The relations of a catalog. Every target is resolved in the package of the seed, also
when the declaring type lies in another one. -/
def Catalog.focusRelations (c : Catalog) (r : Resolver) (seed : String) :
    List FocusRelation :=
  let package := (c.packageOf? seed).getD defaultPackage
  c.relationships.map fun s =>
    { kind := s.kind
      source := s.source
      target := (r.resolve s.target package).identity
      written := some s.target }

end SourceAtlas
