/-!
# Patterns

A pattern is a row of pieces: fixed texts, single characters of a class, and runs of
characters of a class, which are as long as the rest of the pattern lets them be, or as short.
A text is searched from left to right. The search takes the first place where the pattern fits
and goes on behind what it took there, so that no two occurrences overlap.
-/

namespace SourceAtlas.Text

/-- A piece of a pattern. -/
inductive Piece where
  /-- A fixed text. -/
  | text (chars : List Char)
  /-- One character of a class. -/
  | one (accepts : Char → Bool)
  /-- A run of at least `least` characters of a class, the longest that lets the rest of the
  pattern fit. What it covers is reported if `kept` is set. -/
  | longest (kept : Bool) (least : Nat) (accepts : Char → Bool)
  /-- The shortest run of any characters that lets the rest of the pattern fit. -/
  | shortest

/-- Where a pattern fits: the texts of the kept runs, and how many characters it covers. -/
structure Occurrence where
  kept : List (List Char)
  length : Nat
  deriving DecidableEq, Repr

/-- Tells whether and how something fits at the start of a text. -/
abbrev Matcher := List Char → Option Occurrence

namespace Occurrence

/-- The occurrence with `n` more characters before it. -/
def after (n : Nat) (o : Occurrence) : Occurrence :=
  { o with length := n + o.length }

/-- The occurrence with a run before it. -/
def afterRun (kept : Bool) (run : List Char) (o : Occurrence) : Occurrence where
  kept := if kept then run :: o.kept else o.kept
  length := run.length + o.length

end Occurrence

namespace Piece

/-- The longest run of at least `least` accepted characters behind which `next` fits. -/
def longestRun (accepts : Char → Bool) (next : Matcher) :
    (least : Nat) → List Char → Option (List Char × Occurrence)
  | least, [] => if least = 0 then (next []).map fun o => ([], o) else none
  | least, c :: cs =>
    (if accepts c then
      (longestRun accepts next (least - 1) cs).map fun (run, o) => (c :: run, o)
    else none)
    <|> (if least = 0 then (next (c :: cs)).map fun o => ([], o) else none)

/-- The shortest run behind which `next` fits. -/
def shortestRun (next : Matcher) : Matcher
  | [] => next []
  | c :: cs => next (c :: cs) <|> (shortestRun next cs).map (Occurrence.after 1)

/-- The matcher for a piece that is followed by what `next` matches. -/
def before : Piece → Matcher → Matcher
  | text chars, next, cs =>
    if chars.isPrefixOf cs then
      (next (cs.drop chars.length)).map (Occurrence.after chars.length)
    else none
  | one accepts, next, cs =>
    match cs with
    | [] => none
    | c :: cs => if accepts c then (next cs).map (Occurrence.after 1) else none
  | longest kept least accepts, next, cs =>
    (longestRun accepts next least cs).map fun (run, o) => o.afterRun kept run
  | shortest, next, cs => shortestRun next cs

end Piece

/-- A row of pieces. -/
abbrev Pattern := List Piece

namespace Pattern

/-- The matcher for a pattern. -/
def occurrence? : Pattern → Matcher
  | [], _ => some ⟨[], 0⟩
  | piece :: pieces, cs => piece.before (occurrence? pieces) cs

/-- The occurrences of a pattern in a text. The first `skip` characters are covered by an
earlier occurrence. -/
def occurrencesFrom (p : Pattern) : (skip : Nat) → List Char → List Occurrence
  | _, [] => []
  | skip + 1, _ :: cs => occurrencesFrom p skip cs
  | 0, c :: cs =>
    match p.occurrence? (c :: cs) with
    | some o => o :: occurrencesFrom p (o.length - 1) cs
    | none => occurrencesFrom p 0 cs

/-- The occurrences of a pattern in a text, from left to right. -/
def occurrences (p : Pattern) (cs : List Char) : List Occurrence :=
  p.occurrencesFrom 0 cs

/-- The text without the occurrences of a pattern. The first `skip` characters are covered by
an earlier occurrence. -/
def removeFrom (p : Pattern) : (skip : Nat) → List Char → List Char
  | _, [] => []
  | skip + 1, _ :: cs => removeFrom p skip cs
  | 0, c :: cs =>
    match p.occurrence? (c :: cs) with
    | some o => removeFrom p (o.length - 1) cs
    | none => c :: removeFrom p 0 cs

/-- The text without the occurrences of a pattern. -/
def remove (p : Pattern) (cs : List Char) : List Char :=
  p.removeFrom 0 cs

end Pattern

end SourceAtlas.Text
