import SourceAtlas.Walk

/-!
# Finding source files

The source units below a root: the files of the walk whose extension is configured, by
identity. The statistics count the same files for each extension.
-/

namespace SourceAtlas.Scan

/-- The file at the path has a configured extension. -/
def isSource (s : ScanSettings) (p : Path) : Bool :=
  p.extension?.any s.extensions.contains

/-- The unit of a file below the root. -/
def unit? (root p : Path) : Option SourceUnit :=
  (Path.identity? root p).map fun identity => ⟨identity, p⟩

/-- Units are ordered by identity. -/
instance : Ord SourceUnit where
  compare a b := compare a.identity b.identity

/-- The units among the files of a walk, ordered by identity. -/
def unitsOf (s : ScanSettings) (root : Path) (files : List Path) : List SourceUnit :=
  Ordered.ofList ((files.filter (isSource s)).filterMap (unit? root))

/-- The source units below a root, which has to be a directory. -/
def units (t : FileTree) (s : ScanSettings) (root : Path) : Except Error (List SourceUnit) :=
  if t.isDirectory root then .ok (unitsOf s root (Walk.files t s root))
  else .error (.rootNotFound root.text)

/-- The number of source files, in all and for each extension. -/
structure Stats where
  total : Nat
  byExtension : List (String × Nat)
  deriving DecidableEq, Repr

/-- The statistics of the files of a walk. -/
def statsOf (s : ScanSettings) (files : List Path) : Stats :=
  let extensions := (files.filter (isSource s)).filterMap Path.extension?
  { total := extensions.length
    byExtension := (Ordered.ofList extensions).map fun e => (e, extensions.count e) }

/-- The statistics of the files below a root. -/
def stats (t : FileTree) (s : ScanSettings) (root : Path) : Stats :=
  statsOf s (Walk.files t s root)

/-- The statistics in words. -/
def Stats.display (s : Stats) : String :=
  let parts := s.byExtension.map fun (e, n) => "." ++ e ++ ": " ++ toString n
  "Found " ++ toString s.total ++ " source files"
    ++ (if parts.isEmpty then "" else " (" ++ ", ".intercalate parts ++ ")")

end SourceAtlas.Scan
