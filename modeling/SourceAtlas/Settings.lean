import SourceAtlas.References
import SourceAtlas.Resolver

/-!
# Settings

What the user can adjust: which files are scanned, which tokens count as references, how ties
between names are broken, how far a focused diagram reaches, and how many hints are given.
-/

namespace SourceAtlas

/-- Which files below the root are taken. -/
structure ScanSettings where
  /-- The extensions of source files, without the dot. -/
  extensions : List String := ["java"]
  /-- Hidden files and directories are taken too. -/
  includeHidden : Bool := false
  /-- Ignore files of a repository are honoured. -/
  respectGitignore : Bool := true
  deriving DecidableEq, Repr

/-- The settings of an analysis. -/
structure Settings where
  scan : ScanSettings := {}
  references : ReferenceFilter := .standard
  tieBreak : TieBreak := .firstLexical
  /-- The most rounds by which a focused diagram grows. -/
  rounds : Nat := 3
  /-- The most identities that are offered for a missing seed. -/
  hintLimit : Nat := 10
  deriving DecidableEq, Repr

end SourceAtlas
