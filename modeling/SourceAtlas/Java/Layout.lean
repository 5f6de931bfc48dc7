/-!
# Layout

What may stand between two tokens: blanks, comments to the end of a line, and comments
between slash-star and star-slash. A comment that is not closed is no layout.
-/

namespace SourceAtlas.Java

/-- A blank between tokens. -/
def isSpace (c : Char) : Bool :=
  c == ' ' || ('\t' ≤ c && c ≤ '\r')

/-- The number of characters up to and with the nearest star-slash. -/
def blockEnd : List Char → Option Nat
  | '*' :: '/' :: _ => some 2
  | _ :: cs => (blockEnd cs).map (· + 1)
  | [] => none

/-- The length of the comment at the start of a text. -/
def commentLength : List Char → Option Nat
  | '/' :: '/' :: cs => some ((cs.takeWhile (· != '\n')).length + 2)
  | '/' :: '*' :: cs => (blockEnd cs).map (· + 2)
  | _ => none

/-- The length of the layout at the start of a text, of which `inside` characters are known to
belong to a comment. -/
def layoutLength : (inside : Nat) → List Char → Nat
  | _, [] => 0
  | inside + 1, _ :: cs => layoutLength inside cs + 1
  | 0, c :: cs =>
    if isSpace c then layoutLength 0 cs + 1
    else
      match commentLength (c :: cs) with
      | some n => layoutLength (n - 1) cs + 1
      | none => 0

end SourceAtlas.Java
