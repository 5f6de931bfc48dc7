/-!
# Cutting a text at a separator

The fields of a text between the occurrences of a separator, and the search of one text
inside another.
-/

namespace SourceAtlas.Text

/-- The fields between the occurrences of `sep`: one more than there are occurrences. -/
def splitOn (sep : Char) : List Char → List (List Char)
  | [] => [[]]
  | c :: cs =>
    match c == sep, splitOn sep cs with
    | true, fields => [] :: fields
    | false, field :: fields => (c :: field) :: fields
    | false, [] => [[c]]

/-- The characters after the last occurrence of `sep`, or all of them. -/
def afterLast (sep : Char) (cs : List Char) : List Char :=
  (cs.reverse.takeWhile (· != sep)).reverse

/-- The characters before the last occurrence of `sep` and those after it. -/
def splitLast? (sep : Char) (cs : List Char) : Option (List Char × List Char) :=
  match cs.reverse.dropWhile (· != sep) with
  | _ :: before => some (before.reverse, afterLast sep cs)
  | [] => none

/-- `needle` stands somewhere in the given text. -/
def occursIn (needle : List Char) : List Char → Bool
  | [] => needle.isEmpty
  | c :: cs => needle.isPrefixOf (c :: cs) || occursIn needle cs

/-- A file name cut at its last dot into stem and extension. A name without a dot, or whose
only dot comes first, has no extension. -/
def splitExtension (name : List Char) : List Char × Option (List Char) :=
  match splitLast? '.' name with
  | some ([], _) => (name, none)
  | some (stem, extension) => (stem, some extension)
  | none => (name, none)

end SourceAtlas.Text
