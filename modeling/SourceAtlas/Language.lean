import SourceAtlas.Error
import SourceAtlas.Path

/-!
# Source languages

The languages whose declarations can be parsed, told by the extension of a file.
-/

namespace SourceAtlas

/-- A language with a parser for declarations. -/
inductive Language where
  | java
  deriving DecidableEq, Repr

namespace Language

/-- The name of the language. -/
def name : Language → String
  | java => "Java"

/-- The language of files with the given extension. -/
def ofExtension? (extension : String) : Option Language :=
  if extension = "java" then some .java else none

/-- The language of the file at a path. -/
def ofPath? (p : Path) : Option Language :=
  p.extension?.bind ofExtension?

/-- The language of the file at a path, which is needed. -/
def require (p : Path) : Except Error Language :=
  match ofPath? p with
  | some language => .ok language
  | none => .error (.unsupportedLanguage p.text)

end Language

end SourceAtlas
