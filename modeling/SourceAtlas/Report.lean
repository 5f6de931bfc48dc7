import SourceAtlas.Query
import SourceAtlas.Text.Json

/-!
# Answers as JSON

The fields of views and answers in the order in which they are written. A field that has
nothing to say is left out.
-/

namespace SourceAtlas

namespace Json

/-- An array of texts. -/
def strings (texts : List String) : Json :=
  array (texts.map string)

/-- A field that is left out when there is no text for it. -/
def optionalField (name : String) (text : Option String) : List (String × Json) :=
  (text.map fun t => (name, string t)).toList

/-- A field that is left out when there are no texts. -/
def nonEmptyField (name : String) (texts : List String) : List (String × Json) :=
  if texts.isEmpty then [] else [(name, strings texts)]

end Json

/-- A node of a view. -/
def ViewNode.toJson (n : ViewNode) : Json :=
  .object ([("id", .string n.id), ("label", .string n.label)]
    ++ Json.optionalField "package" n.package
    ++ Json.optionalField "kind" (n.kind.map TypeKind.word)
    ++ [("is_seed", .boolean n.isSeed)])

/-- An edge of a view. -/
def Edge.toJson (e : Edge) : Json :=
  .object [("from", .string e.source), ("to", .string e.target), ("kind", .string e.kind.tag)]

/-- A view. -/
def View.toJson (v : View) : Json :=
  .object [("nodes", .array (v.nodes.map ViewNode.toJson)),
    ("edges", .array (v.edges.map Edge.toJson))]

/-- The answer to a question for a tree. -/
def TreeAnswer.toJson (a : TreeAnswer) : Json :=
  .object ([("found", .boolean a.found), ("seed", .string a.seed)]
    ++ Json.optionalField "identity" a.identity
    ++ [("direction", .string a.direction.word), ("lines", Json.strings a.lines)]
    ++ Json.nonEmptyField "hints" a.hints)

/-- The answer to a question for a focused diagram. -/
def FocusAnswer.toJson (a : FocusAnswer) : Json :=
  .object ([("found", .boolean a.found), ("seed", .string a.seed)]
    ++ Json.optionalField "identity" a.identity
    ++ [("round_sizes", .array (a.roundSizes.map .number)),
      ("stabilized", .boolean a.stabilized), ("view", a.view.toJson)]
    ++ Json.nonEmptyField "hints" a.hints)

/-- Counts by name. -/
def Json.counts (entries : List (String × Nat)) : Json :=
  .object (entries.map fun (name, n) => (name, .number n))

/-- The counts of a project, with the files for each extension, ordered by name. -/
def StatsAnswer.toJson (a : StatsAnswer) (filesByExtension : List (String × Nat)) : Json :=
  .object [
    ("files_by_extension", Json.counts filesByExtension),
    ("isolated_units", .number a.isolatedUnits),
    ("packages", Json.counts a.packages),
    ("reference_edges", .number a.referenceEdges),
    ("relationships", .number a.relationships),
    ("types", .number a.types),
    ("units", .number a.units)]

end SourceAtlas
