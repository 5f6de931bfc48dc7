import SourceAtlas.Ordered
import SourceAtlas.Text.Blank
import SourceAtlas.Text.Capital
import SourceAtlas.Text.Pattern
import SourceAtlas.Text.Split
import SourceAtlas.Text.Word

/-!
# References in source text

The names that a source text seems to refer to, found without parsing it. Comments are
removed first. Then ten patterns for the usual places of type names are searched for, and
what they keep is cut at commas into candidate tokens. A filter keeps the tokens that look
like type names and are not excluded.
-/

namespace SourceAtlas

namespace References

open Text (Piece Pattern isWord isBlank)

/-! ### Comments -/

/-- From a slash and a star to the nearest star and slash behind them. -/
def blockComment : Pattern :=
  [.text ['/', '*'], .shortest, .text ['*', '/']]

/-- From two slashes to the end of the line. -/
def lineComment : Pattern :=
  [.text ['/', '/'], .longest false 0 (· != '\n')]

/-- The text without comments: the blocks are removed first, wherever they start, and then
the line comments of what is left. -/
def stripComments (cs : List Char) : List Char :=
  lineComment.remove (blockComment.remove cs)

/-! ### The patterns -/

/-- A fixed word. -/
def word (w : String) : Piece := .text w.toList

/-- One or more blank characters. -/
def gap : Piece := .longest false 1 isBlank

/-- Any number of blank characters. -/
def blanks : Piece := .longest false 0 isBlank

/-- A name, which is kept. -/
def name : Piece := .longest true 1 isWord

/-- A name that is passed over. -/
def member : Piece := .longest false 1 isWord

/-- Names with blanks and commas between them, which are kept. -/
def nameList : Piece := .longest true 1 fun c => isWord c || isBlank c || c == ','

/-- Names with dots between them, which are kept. -/
def dottedName : Piece := .longest true 1 fun c => isWord c || c == '.'

/-- What may stand right behind the name of a member. -/
def isBoundary (c : Char) : Bool :=
  isBlank c || [';', ')', ',', ']', '['].contains c

/-- The places where type names are expected. -/
def patterns : List Pattern := [
  [word "class", gap, name, gap, word "extends", gap, name],
  [word "class", gap, name, gap, word "implements", gap, nameList],
  [word "extends", gap, name],
  [word "implements", gap, nameList],
  [word "new", gap, name, blanks, word "("],
  [name, word ".class"],
  [word "@", name],
  [word "import", gap, dottedName, word ";"],
  [name, word ".", member, blanks, word "("],
  [name, word ".", member, .one isBoundary]]

/-! ### Tokens -/

/-- The tokens of a kept text: its parts between commas without outer blanks. -/
def tokens (kept : List Char) : List (List Char) :=
  ((Text.splitOn ',' kept).map Text.trimBlanks).filter (!·.isEmpty)

/-- The tokens that one pattern finds in a text. -/
def found (cs : List Char) (p : Pattern) : List (List Char) :=
  (p.occurrences cs).flatMap fun o => o.kept.flatMap tokens

/-- The candidate tokens of a text, in order and each once. -/
def candidates (text : String) : List String :=
  let cs := stripComments text.toList
  Ordered.ofList ((patterns.flatMap (found cs)).map String.ofList)

end References

/-- Which candidate tokens are taken for references. -/
structure ReferenceFilter where
  /-- Tokens that are left out, in order. -/
  excluded : List String
  /-- Only tokens that start with a capital are taken. -/
  requireCapital : Bool
  deriving DecidableEq, Repr

namespace ReferenceFilter

/-- Types that occur nearly everywhere and tell nothing. -/
def commonTypes : List String :=
  Ordered.ofList ["String", "System", "Object", "Integer", "Boolean"]

/-- The filter that is used unless the settings say otherwise. -/
def standard : ReferenceFilter where
  excluded := commonTypes
  requireCapital := true

/-- The token is taken for a reference. -/
def accepts (f : ReferenceFilter) (token : String) : Bool :=
  match token.toList with
  | [] => false
  | first :: _ => (!f.requireCapital || Text.isCapital first) && !f.excluded.contains token

/-- The tokens that are taken, in order and each once. -/
def retain (f : ReferenceFilter) (tokens : List String) : List String :=
  (Ordered.ofList tokens).filter f.accepts

/-- The references of a text, in order. -/
def references (f : ReferenceFilter) (text : String) : List String :=
  f.retain (References.candidates text)

end ReferenceFilter

end SourceAtlas
