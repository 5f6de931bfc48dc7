import SourceAtlas.Path

/-!
# Units, declarations and relationships

A unit is a source file, known by its identity. A parsed unit has a package and top level
declarations, each with the names it inherits from as they are written. From it come the
records of the declared types and the relationships between them.
-/

namespace SourceAtlas

/-- The package of a unit that declares none. -/
def defaultPackage : String := "default"

/-- The full name of a type in a package. -/
def qualify (package name : String) : String :=
  package ++ "." ++ name

/-- The file stem of an identity: the part after the last slash, without its extension. -/
def simpleName (identity : String) : String :=
  String.ofList (Text.splitExtension (Text.afterLast '/' identity.toList)).1

/-- One source file. -/
structure SourceUnit where
  /-- The path below the scanned root, with slashes between the names. -/
  identity : String
  /-- Where the file lies. -/
  path : Path
  deriving DecidableEq, Repr

namespace SourceUnit

/-- The file stem of the unit. -/
def simpleName (u : SourceUnit) : String :=
  SourceAtlas.simpleName u.identity

end SourceUnit

/-- The kinds of declared types. -/
inductive TypeKind where
  | classType
  | interface
  | enum
  | record
  | annotationType
  deriving DecidableEq, Repr

namespace TypeKind

/-- An interface or an annotation type. -/
def isInterface : TypeKind → Bool
  | interface => true
  | annotationType => true
  | _ => false

/-- The word for the kind. -/
def word : TypeKind → String
  | classType => "class"
  | interface => "interface"
  | enum => "enum"
  | record => "record"
  | annotationType => "annotation"

end TypeKind

/-- The kinds of directed relations. -/
inductive RelationKind where
  /-- A type extends its parent. -/
  | extending
  /-- A type implements an interface. -/
  | implementing
  /-- A text mentions a name. -/
  | referencing
  deriving DecidableEq, Repr

namespace RelationKind

/-- The tag that names the kind in diagrams. -/
def tag : RelationKind → String
  | extending => "EXTENDS"
  | implementing => "IMPLEMENTS"
  | referencing => "REFERENCES"

/-- The place of a kind among the kinds. -/
def rank : RelationKind → Nat
  | extending => 0
  | implementing => 1
  | referencing => 2

instance : Ord RelationKind where
  compare a b := compare a.rank b.rank

end RelationKind

/-- A directed relation of some kind between two identities. -/
structure Edge where
  /-- Where the edge starts. -/
  source : String
  /-- Where the edge ends. -/
  target : String
  /-- What the edge says. -/
  kind : RelationKind
  deriving DecidableEq, Repr

/-- Edges are ordered by source, then target, then kind. -/
instance : Ord Edge where
  compare a b :=
    ((compare a.source b.source).then (compare a.target b.target)).then (compare a.kind b.kind)

/-- A declared type and the names it inherits from, as written. -/
structure Declaration where
  name : String
  kind : TypeKind
  /-- The parents. An interface may have several. -/
  extending : List String := []
  /-- The implemented interfaces. -/
  implementing : List String := []
  deriving DecidableEq, Repr

/-- What is kept of a parsed text. -/
structure ParsedUnit where
  /-- The declared package. -/
  package : Option String := none
  /-- The top level declarations in the order of the text. -/
  types : List Declaration := []
  deriving DecidableEq, Repr

/-- The record of a declared type. -/
structure TypeInfo where
  /-- The simple name. -/
  name : String
  /-- The name qualified by the package. -/
  fullName : String
  kind : TypeKind
  package : String
  /-- The file that declares the type. -/
  origin : Path
  deriving DecidableEq, Repr

/-- A relation between a declared type and a name as it is written in its declaration. -/
structure Relationship where
  kind : RelationKind
  /-- The full name of the declaring type. -/
  source : String
  /-- The name that is meant, not yet resolved. -/
  target : String
  deriving DecidableEq, Repr

namespace ParsedUnit

/-- The package of the unit, declared or not. -/
def packageName (u : ParsedUnit) : String :=
  u.package.getD defaultPackage

/-- The record of one declaration of the unit. -/
def info (u : ParsedUnit) (origin : Path) (d : Declaration) : TypeInfo where
  name := d.name
  fullName := qualify u.packageName d.name
  kind := d.kind
  package := u.packageName
  origin := origin

/-- The records of all declarations, in order. -/
def infos (u : ParsedUnit) (origin : Path) : List TypeInfo :=
  u.types.map (u.info origin)

/-- The relationships of one declaration: first its parents, then its interfaces. -/
def declared (u : ParsedUnit) (d : Declaration) : List Relationship :=
  let fullName := qualify u.packageName d.name
  d.extending.map (Relationship.mk .extending fullName)
    ++ d.implementing.map (Relationship.mk .implementing fullName)

/-- The relationships of all declarations, in order. -/
def relationships (u : ParsedUnit) : List Relationship :=
  u.types.flatMap u.declared

end ParsedUnit

end SourceAtlas
