import SourceAtlas.Declaration
import SourceAtlas.Ordered
import SourceAtlas.Text.Lowercase

/-!
# Resolution of short names

A short name is resolved against known identities in three steps: the identity of that name
in the package at hand; a known identity that holds the name as a part, in lower case; the
name itself, which then stays unresolved. The second step is lenient on purpose, and which of
several identities it takes is settled by the tie break.
-/

namespace SourceAtlas

/-- Which of several identities that hold a name is taken. -/
inductive TieBreak where
  /-- The first in order. -/
  | firstLexical
  /-- The shortest in bytes, and of several the first in order. -/
  | shortestName
  deriving DecidableEq, Repr

/-- The word for a tie break. -/
def TieBreak.word : TieBreak → String
  | firstLexical => "first_lexical"
  | shortestName => "shortest_name"

/-- The answer to a short name, by the step that gave it. -/
inductive Resolution where
  | samePackage (identity : String)
  | fuzzy (identity : String)
  | unresolved (identity : String)
  deriving DecidableEq, Repr

namespace Resolution

/-- The identity that a name is taken for. -/
def identity : Resolution → String
  | samePackage x => x
  | fuzzy x => x
  | unresolved x => x

/-- Some known identity was found. -/
def isResolved : Resolution → Bool
  | unresolved _ => false
  | _ => true

/-- The word for the step that gave the answer. -/
def tier : Resolution → String
  | samePackage _ => "same_package"
  | fuzzy _ => "fuzzy"
  | unresolved _ => "unresolved"

end Resolution

/-- The known identities, in order and each once, with the tie break. -/
@[ext]
structure Resolver where
  known : List String
  tieBreak : TieBreak := .firstLexical
  increasing : Ordered.Increasing known
  deriving Repr

namespace Resolver

/-- The resolver that knows the given identities. -/
def ofList (identities : List String) (tieBreak : TieBreak := .firstLexical) : Resolver where
  known := Ordered.ofList identities
  tieBreak := tieBreak
  increasing := Ordered.increasing_ofList identities

/-- `x` is a known identity. -/
def contains (r : Resolver) (x : String) : Bool :=
  Ordered.search x r.known

/-- The known identities that hold `name`, both in lower case. -/
def holding (r : Resolver) (name : String) : List String :=
  let needle := Text.lower name
  r.known.filter fun x => Text.occursIn needle (Text.lower x)

/-- The first of the shortest texts of a list. -/
def shortest? : List String → Option String
  | [] => none
  | x :: xs =>
    match shortest? xs with
    | some y => if y.utf8ByteSize < x.utf8ByteSize then some y else some x
    | none => some x

/-- The identity that is taken of a list in order. -/
def pick? (r : Resolver) (xs : List String) : Option String :=
  match r.tieBreak with
  | .firstLexical => xs.head?
  | .shortestName => shortest? xs

/-- The answer for the short name `name` in a package. -/
def resolve (r : Resolver) (name package : String) : Resolution :=
  if r.contains (qualify package name) then
    .samePackage (qualify package name)
  else if name.isEmpty then
    .unresolved name
  else
    match r.pick? (r.holding name) with
    | some x => .fuzzy x
    | none => .unresolved name

end Resolver

end SourceAtlas
