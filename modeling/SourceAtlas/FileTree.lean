import SourceAtlas.Error
import SourceAtlas.Path
import SourceAtlas.Text.Utf8

/-!
# File trees

A file tree holds files and directories by their canonical places, and a working directory
from which relative paths start. A path is followed segment by segment: every segment but a
last name needs a directory to be looked up in, a dot stays, two dots go up, and an empty
segment between slashes stays as well.
-/

namespace SourceAtlas

/-- The canonical place of a file or directory: the names that lead to it from the top. -/
abbrev Place := List String

/-- What stands at a place. -/
inductive Entry where
  | directory
  | file (bytes : List UInt8)
  deriving DecidableEq, Repr

/-- A tree of directories and files. -/
structure FileTree where
  /-- The entries below the top, later ones replacing earlier ones. -/
  entries : List (Place × Entry) := []
  /-- The directory from which relative paths start. -/
  workingDirectory : Place := []
  deriving Repr

namespace FileTree

/-- What stands at a place. The top is a directory. -/
def lookup? (t : FileTree) (place : Place) : Option Entry :=
  if place.isEmpty then some .directory else t.entries.lookup place

/-- There is a directory at the place. -/
def isDirectoryAt (t : FileTree) (place : Place) : Bool :=
  t.lookup? place == some .directory

/-- Puts an entry at a place, in the stead of what stood there. -/
def set (t : FileTree) (place : Place) (entry : Entry) : FileTree :=
  { t with entries := (place, entry) :: t.entries.filter (·.1 != place) }

/-- The places on the way to a place, from the top to the place itself. -/
def wayTo (place : Place) : List Place :=
  (List.range (place.length + 1)).map place.take

/-- Makes the directory at a place and those on the way to it. -/
def makeDirectories (t : FileTree) (place : Place) : FileTree :=
  (wayTo place).foldl (fun t p => if (t.lookup? p).isSome then t else t.set p .directory) t

/-- Puts a file at a place and makes the directories on the way to it. -/
def putFile (t : FileTree) (place : Place) (bytes : List UInt8) : FileTree :=
  (t.makeDirectories place.dropLast).set place (.file bytes)

/-- The most bytes that one name may have. -/
def nameLimit : Nat := 255

/-- The most bytes that a path may have. -/
def pathLimit : Nat := 4095

/-- The segment leads to another place by its name. -/
def isNaming (segment : String) : Bool :=
  segment != "" && segment != "." && segment != ".."

/-- Follows one segment from a place. -/
def step (t : FileTree) (place : Place) (segment : String) : Except FileError Place :=
  match t.lookup? place with
  | none => .error .notFound
  | some (.file _) => .error .notDirectory
  | some .directory =>
    if segment = ".." then .ok place.dropLast
    else if !isNaming segment then .ok place
    else if nameLimit < segment.utf8ByteSize then .error .nameTooLong
    else if (t.lookup? (place ++ [segment])).isSome then .ok (place ++ [segment])
    else .error .notFound

/-- The place from which a path starts. -/
def start (t : FileTree) (p : Path) : Place :=
  if p.isAbsolute then [] else t.workingDirectory

/-- The segments of a path: the stretches between its slashes. -/
def segments (p : Path) : List String :=
  (Text.splitOn '/' p.text.toList).map String.ofList

/-- Refuses texts that cannot be paths. -/
def checkPath (p : Path) : Except FileError Unit :=
  if p.text.toList.contains (Char.ofNat 0) then .error .zeroInName
  else if p.text.isEmpty then .error .notFound
  else if pathLimit < p.text.utf8ByteSize then .error .nameTooLong
  else .ok ()

/-- The place that a path leads to, where there has to be something. -/
def resolve (t : FileTree) (p : Path) : Except FileError Place := do
  checkPath p
  (segments p).foldlM t.step (t.start p)

/-- The place that a path names if every name on its way is a directory. -/
def placeNamed (t : FileTree) (p : Path) : Place :=
  (segments p).foldl
    (fun place segment =>
      if segment == ".." then place.dropLast
      else if isNaming segment then place ++ [segment]
      else place)
    (t.start p)

/-- There is something at the path. -/
def hasEntry (t : FileTree) (p : Path) : Bool :=
  (t.resolve p).toOption.isSome

/-- There is a directory at the path. -/
def isDirectory (t : FileTree) (p : Path) : Bool :=
  (t.resolve p).toOption.any t.isDirectoryAt

/-- The absolute path of a place. -/
def absolute (place : Place) : Path :=
  ⟨"/" ++ Path.joinNames place⟩

/-- The absolute path of what is at a path, without dots and repeated slashes. -/
def canonical? (t : FileTree) (p : Path) : Option Path :=
  (t.resolve p).toOption.map absolute

/-- The bytes of the file at a path. -/
def read (t : FileTree) (p : Path) : Except FileError (List UInt8) := do
  match t.lookup? (← t.resolve p) with
  | some (.file bytes) => .ok bytes
  | some .directory => .error .isDirectory
  | none => .error .notFound

/-- The text of the file at a path. -/
def readText (t : FileTree) (p : Path) : Except FileError String := do
  match Text.decode? (← t.read p) with
  | some text => .ok (String.ofList text)
  | none => .error .notText

/-- The place where a file that is written to a path goes. Its directory has to be there
already, and the path has to end with the name of the file. -/
def target (t : FileTree) (p : Path) : Except FileError Place := do
  checkPath p
  let whole := segments p
  let bare := (whole.reverse.dropWhile (· == "")).reverse
  match bare.getLast?.filter isNaming with
  | none =>
    let _ ← t.resolve p
    .error .isDirectory
  | some name =>
    let directory ← bare.dropLast.foldlM t.step (t.start p)
    if !t.isDirectoryAt directory then .error .notDirectory
    else if bare.length < whole.length then .error .isDirectory
    else if nameLimit < name.utf8ByteSize then .error .nameTooLong
    else if t.isDirectoryAt (directory ++ [name]) then .error .isDirectory
    else .ok (directory ++ [name])

/-- Writes a file. -/
def write (t : FileTree) (p : Path) (bytes : List UInt8) : Except FileError FileTree := do
  return t.set (← t.target p) (.file bytes)

end FileTree

end SourceAtlas
