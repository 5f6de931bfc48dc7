import SourceAtlas.View

/-!
# Diagrams as plain text

Every node on a line of its own, with the targets of its edges below it.
-/

namespace SourceAtlas.View

/-- The lines of a node: its id, then the targets of the edges that leave it. -/
def outlineOf (v : View) (n : ViewNode) : List String :=
  n.id :: (v.edges.filter (·.source == n.id)).map fun e => "    -> " ++ e.target

/-- The diagram as plain text. -/
def toText (v : View) : String :=
  String.join ((v.nodes.flatMap v.outlineOf).map (· ++ "\n"))

end SourceAtlas.View
