import SourceAtlas.Text.Utf8

/-!
# Lines of a file

A line ends with a line feed, and a carriage return right before it belongs to that end. What
follows the last line feed is a line as well, unless it is empty, and keeps its carriage return.
-/

namespace SourceAtlas.Text

/-- The bytes without a carriage return at their end. -/
def dropReturn (line : List UInt8) : List UInt8 :=
  if line.getLast? == some 0x0D then line.dropLast else line

/-- The lines of fields between line feeds. -/
def linesOfFields : List (List UInt8) → List (List UInt8)
  | [] => []
  | [last] => if last.isEmpty then [] else [last]
  | line :: fields => dropReturn line :: linesOfFields fields

/-- The lines of a file up to the first that is no text. -/
def linesOf (bytes : List UInt8) : List (List Char) :=
  ((linesOfFields (bytes.splitOn 0x0A)).map decode?).takeWhile Option.isSome |>.filterMap id

end SourceAtlas.Text
