import SourceAtlas.Resolver

/-!
# The catalog of declared types

The catalog collects parsed units. A type that is declared again replaces the earlier record
of its full name, while relationships pile up. The catalog also remembers which names each
file declared.
-/

namespace SourceAtlas

/-- The declared types of a project and the relationships between them. -/
structure Catalog where
  /-- The records as they came in, one for each declaration. -/
  declared : List TypeInfo := []
  /-- The relationships as they came in. -/
  relationships : List Relationship := []
  deriving Repr

namespace Catalog

/-- The catalog without units. -/
def empty : Catalog := {}

/-- Adds the declarations of a unit that was read from `origin`. -/
def addUnit (c : Catalog) (u : ParsedUnit) (origin : Path) : Catalog where
  declared := c.declared ++ u.infos origin
  relationships := c.relationships ++ u.relationships

/-- The record of a full name: that of its last declaration. -/
def get? (c : Catalog) (fullName : String) : Option TypeInfo :=
  c.declared.reverse.find? (·.fullName == fullName)

/-- Some declaration has the full name. -/
def contains (c : Catalog) (fullName : String) : Bool :=
  (c.get? fullName).isSome

/-- The declared full names, in order. -/
def identities (c : Catalog) : List String :=
  Ordered.ofList (c.declared.map TypeInfo.fullName)

/-- The records in the order of their full names. -/
def types (c : Catalog) : List TypeInfo :=
  c.identities.filterMap c.get?

/-- The package of a declared type. -/
def packageOf? (c : Catalog) (fullName : String) : Option String :=
  (c.get? fullName).map TypeInfo.package

/-- The files that declared some type, in order. Of several ways to write a path the first
that came in is kept. -/
def files (c : Catalog) : List Path :=
  Ordered.ofList (c.declared.map TypeInfo.origin).reverse

/-- The first name among those that the file at `path` declared whose record still comes from
that file. -/
def identityForFile? (c : Catalog) (path : Path) : Option String :=
  ((c.declared.filter (·.origin.same path)).map TypeInfo.fullName).find? fun name =>
    (c.get? name).any (·.origin.same path)

/-- The packages in order, each with the records of its types in order. -/
def packages (c : Catalog) : List (String × List TypeInfo) :=
  (Ordered.ofList (c.types.map TypeInfo.package)).map fun package =>
    (package, c.types.filter (·.package == package))

/-- The resolver that knows the declared full names. -/
def resolver (c : Catalog) (tieBreak : TieBreak := .firstLexical) : Resolver :=
  Resolver.ofList c.identities tieBreak

end Catalog

end SourceAtlas
