import SourceAtlas.FileTree
import SourceAtlas.Ignore.Below
import SourceAtlas.Ignore.Rules
import SourceAtlas.Settings

/-!
# Walking a directory

The files below a root that are to be taken: neither the file nor a directory on the way to it
may be left out. What is left out is decided by ignore files in the directory of the entry and
in all directories above it, also above the root, and then by hidden names. The ignore files of
a repository count only inside a repository, and only up to its top directory.
-/

namespace SourceAtlas.Walk

open Ignore (Verdict Rule)

/-- The bytes of the file at a place. -/
def bytesAt? (t : FileTree) (place : Place) : Option (List UInt8) :=
  match t.lookup? place with
  | some (.file bytes) => some bytes
  | _ => none

/-- The rules in the file at a place. -/
def rulesAt (t : FileTree) (place : Place) : List Rule :=
  ((bytesAt? t place).map Ignore.rulesOf).getD []

/-- The directory is the top of a repository. -/
def isRepository (t : FileTree) (directory : Place) : Bool :=
  (t.lookup? (directory ++ [".git"])).isSome || (t.lookup? (directory ++ [".jj"])).isSome

/-- The first line of the file at a path. -/
def firstLine? (t : FileTree) (p : Path) : Option String := do
  let bytes ← (t.read p).toOption
  let line ← (Text.linesOf bytes).head?
  return String.ofList line

/-- The text behind a given start. -/
def behind? (start text : String) : Option String :=
  if start.toList.isPrefixOf text.toList then
    some (String.ofList (text.toList.drop start.length))
  else none

/-- The directory with the data that all working copies of a repository share, where the
working copy at hand has a file that points at its own data. -/
def sharedData? (t : FileTree) (pointer : Path) : Option Path := do
  let own : Path := ⟨← behind? "gitdir: " (← firstLine? t pointer)⟩
  let shared ← firstLine? t (own.join ⟨"commondir"⟩)
  return if (behind? "." shared).isSome then own.join ⟨shared⟩ else ⟨shared⟩

/-- The rules that a repository keeps apart from its files. -/
def excludeRules (t : FileTree) (directory : Place) : List Rule :=
  let data := directory ++ [".git"]
  match t.lookup? data with
  | some .directory => rulesAt t (data ++ ["info", "exclude"])
  | some (.file _) =>
    let rules : Option (List Rule) := do
      let shared ← sharedData? t (FileTree.absolute data)
      let bytes ← (t.read (shared.join ⟨"info/exclude"⟩)).toOption
      return Ignore.rulesOf bytes
    rules.getD []
  | none => []

/-- The directories above a place, the nearest first. -/
def above (place : Place) : List Place :=
  (FileTree.wayTo place.dropLast).reverse

/-- The directories up to and with the first that is the top of a repository. -/
def insideRepository (t : FileTree) : List Place → List Place
  | [] => []
  | d :: ds => if isRepository t d then [d] else d :: insideRepository t ds

/-- A walk: where it starts, as a path and as a place. -/
structure Root where
  path : Path
  place : Place

namespace Root

/-- The path of a place below the root, as the walk comes to it. -/
def pathTo (r : Root) (place : Place) : Path :=
  if place == r.place then r.path
  else r.path.join ⟨Path.joinNames (place.drop r.place.length)⟩

/-- The path of a place seen from a directory above it. Inside the root it is what remains of the
path by which the walk comes to it. -/
def seenFrom (r : Root) (directory place : Place) : List UInt8 :=
  if r.place.isPrefixOf directory then
    Text.encode (String.ofList (Ignore.below (r.pathTo directory) (r.pathTo place)))
  else Text.encode (Path.joinNames (place.drop directory.length))

end Root

/-- What the nearest directory with a rule for the place says. -/
def nearestVerdict? (root : Root) (rules : Place → List Rule) (directories : List Place)
    (place : Place) (isDirectory : Bool) : Option Verdict :=
  directories.findSome? fun d => Ignore.verdict? (rules d) (root.seenFrom d place) isDirectory

/-- What the ignore files say about a place. -/
def verdict? (t : FileTree) (s : ScanSettings) (root : Root) (place : Place) : Option Verdict :=
  let isDirectory := t.isDirectoryAt place
  let directories := above place
  let inRepository := s.respectGitignore && directories.any (isRepository t)
  let inside := if inRepository then insideRepository t directories else []
  nearestVerdict? root (fun d => rulesAt t (d ++ [".ignore"])) directories place isDirectory
    <|> nearestVerdict? root (fun d => rulesAt t (d ++ [".gitignore"])) inside place isDirectory
    <|> nearestVerdict? root (excludeRules t) inside place isDirectory

/-- The name starts with a dot. -/
def isHidden (place : Place) : Bool :=
  place.getLast?.any fun name => name.toList.head? == some '.'

/-- The entry at a place is left out. -/
def isSkipped (t : FileTree) (s : ScanSettings) (root : Root) (place : Place) : Bool :=
  match verdict? t s root place with
  | some .ignored => true
  | some .takenBack => false
  | none => !s.includeHidden && isHidden place

/-- The places below a root on the way to a place, and the place itself. -/
def wayBelow (root place : Place) : List Place :=
  (FileTree.wayTo place).drop (root.length + 1)

/-- The file at a place below the root is taken. -/
def isTaken (t : FileTree) (s : ScanSettings) (root : Root) (place : Place) : Bool :=
  (wayBelow root.place place).all fun p => !isSkipped t s root p

/-- The names that lead from the root directory to an entry, if it is a file that is taken. -/
def namesTo? (t : FileTree) (s : ScanSettings) (root : Root) : Place × Entry → Option (List String)
  | (place, .file _) =>
    if root.place.isPrefixOf place && isTaken t s root place then
      some (place.drop root.place.length)
    else none
  | (_, .directory) => none

/-- The files below the root directory, by the names that lead to them from there. -/
def filesBelow (t : FileTree) (s : ScanSettings) (root : Root) : List (List String) :=
  t.entries.filterMap (namesTo? t s root)

/-- The paths of the files to be taken, seen through the root. A root that is a file is taken
itself. -/
def files (t : FileTree) (s : ScanSettings) (root : Path) : List Path :=
  match t.resolve root with
  | .error _ => []
  | .ok place =>
    match t.lookup? place with
    | some .directory =>
      (filesBelow t s ⟨root, place⟩).map fun names => root.join ⟨Path.joinNames names⟩
    | some (.file _) => [root]
    | none => []

end SourceAtlas.Walk
