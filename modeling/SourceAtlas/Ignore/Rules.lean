import SourceAtlas.Ignore.Glob
import SourceAtlas.Text.Blank
import SourceAtlas.Text.Lines

/-!
# Ignore rules

An ignore file holds one rule a line. A rule ignores the paths below the directory of the file
that its glob stands for, or, with an exclamation mark in front, takes them back. Of several
rules for a path the last one counts.
-/

namespace SourceAtlas.Ignore

/-- What is said about a path. -/
inductive Verdict where
  | ignored
  | takenBack
  deriving DecidableEq, Repr

/-- A rule of an ignore file. -/
structure Rule where
  glob : Glob
  verdict : Verdict
  /-- The rule is for directories only. -/
  directoryOnly : Bool

/-! ### Reading -/

/-- The line without blanks at its end, unless the last one is protected by a backslash. -/
def trimEnd (line : List Char) : List Char :=
  if ['\\', ' '].isSuffixOf line then line
  else (line.reverse.dropWhile Text.isBlank).reverse

/-- The glob of a rule as it is meant: without a slash it stands for names in any directory,
and two stars at its end stand for something at least. -/
def completeGlob (anchored : Bool) (text : List Char) : List Char :=
  let text :=
    if anchored || text.contains '/' || text = ['*', '*'] then text
    else ['*', '*', '/'] ++ text
  if ['/', '*', '*'].isSuffixOf text then text ++ ['/', '*'] else text

/-- A rule whose text has no mark for its verdict any more. -/
def ruleOf? (verdict : Verdict) (anchored : Bool) (text : List Char) : Option Rule := do
  let directoryOnly := text.getLast? == some '/'
  let text := if directoryOnly then text.dropLast else text
  let text := if directoryOnly && text.getLast? == some '\\' then text.dropLast else text
  return { glob := ← Glob.ofText? (completeGlob anchored text), verdict, directoryOnly }

/-- The rule of a line, if it is no comment, not empty and not malformed. A backslash keeps a
number sign or an exclamation mark at the start from having a meaning, and a slash at the start
ties the rule to the directory of the file. -/
def Rule.ofLine? (line : List Char) : Option Rule :=
  if line.head? == some '#' then none
  else
    match trimEnd line with
    | [] => none
    | '\\' :: '!' :: text => ruleOf? .ignored false ('!' :: text)
    | '\\' :: '#' :: text => ruleOf? .ignored false ('#' :: text)
    | '!' :: '/' :: text => ruleOf? .takenBack true text
    | '!' :: text => ruleOf? .takenBack false text
    | '/' :: text => ruleOf? .ignored true text
    | text => ruleOf? .ignored false text

/-- The first line without the byte order marks at its start. -/
def dropMarks : List (List Char) → List (List Char)
  | [] => []
  | line :: lines => line.dropWhile (·.toNat == 0xFEFF) :: lines

/-- The rules of an ignore file. -/
def rulesOf (bytes : List UInt8) : List Rule :=
  (dropMarks (Text.linesOf bytes)).filterMap Rule.ofLine?

/-! ### Judging -/

/-- The rule speaks about the path. -/
def Rule.applies (r : Rule) (path : List UInt8) (isDirectory : Bool) : Bool :=
  (!r.directoryOnly || isDirectory) && r.glob.fits path

/-- What the rules say about a path. -/
def verdict? (rules : List Rule) (path : List UInt8) (isDirectory : Bool) : Option Verdict :=
  (rules.reverse.find? (·.applies path isDirectory)).map Rule.verdict

end SourceAtlas.Ignore
