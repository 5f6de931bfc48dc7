import SourceAtlas.View

/-!
# Diagrams as DOT text

Types stand in one cluster for each package, all other nodes below the clusters, and the
edges last. Interfaces are drawn as components and everything else as records, whose labels
have to protect the signs that divide a record into fields.
-/

namespace SourceAtlas.View

/-- One character of a quoted text. -/
def escapeChar (record : Bool) (c : Char) : List Char :=
  if c = '\\' then ['\\', '\\']
  else if c = '"' then ['\\', '"']
  else if c = '\n' then ['\\', 'n']
  else if record && ['\x7b', '\x7d', '|', '<', '>'].contains c then ['\\', c]
  else [c]

/-- The characters of a quoted text. Inside a record label the signs of record fields are
protected too. -/
def escape (record : Bool) (text : String) : String :=
  String.ofList (text.toList.flatMap (escapeChar record))

/-- A text in quotes. -/
def quote (text : String) : String :=
  "\"" ++ escape false text ++ "\""

/-- The attributes of an edge of the given kind. -/
def edgeStyle : RelationKind → String
  | .extending => "label=\"extends\", arrowhead=onormal, color=red, style=bold"
  | .implementing => "label=\"implements\", arrowhead=onormal, color=blue, style=dashed"
  | .referencing => "arrowhead=vee"

/-- The statement of a node. -/
def dotNode (n : ViewNode) : String :=
  let shape := if n.isInterface then "component" else "record"
  let seedStyle := if n.isSeed then ", style=filled, fillcolor=lightcoral" else ""
  quote n.id ++ " [label=\"" ++ escape (!n.isInterface) n.label ++ "\", shape=" ++ shape
    ++ seedStyle ++ "];"

/-- The statement of an edge. -/
def dotEdge (e : Edge) : String :=
  quote e.source ++ " -> " ++ quote e.target ++ " [" ++ edgeStyle e.kind ++ "];"

/-- The lines of the cluster of a package. -/
def dotCluster (package : String) (nodes : List ViewNode) : List String :=
  ["", "    subgraph " ++ quote ("cluster_" ++ package) ++ " \x7b",
    "        label=" ++ quote package ++ ";", "        style=rounded;"]
    ++ nodes.map (fun n => "        " ++ dotNode n) ++ ["    \x7d"]

/-- Lines under a blank line, or none. -/
def paragraph (lines : List String) : List String :=
  if lines.isEmpty then [] else "" :: lines

/-- The packages of the nodes, in order. -/
def packages (v : View) : List String :=
  Ordered.ofList (v.nodes.filterMap ViewNode.package)

/-- The lines of a diagram. -/
def dotLines (v : View) : List String :=
  ["digraph refgraph \x7b", "    rankdir=BT;",
    "    node [fontname=\"Helvetica\", fontsize=10];",
    "    edge [fontname=\"Helvetica\", fontsize=8];"]
    ++ v.packages.flatMap (fun p => dotCluster p (v.nodes.filter (·.package == some p)))
    ++ paragraph ((v.nodes.filter (·.package.isNone)).map fun n => "    " ++ dotNode n)
    ++ paragraph (v.edges.map fun e => "    " ++ dotEdge e)
    ++ ["\x7d"]

/-- The diagram as DOT text. -/
def toDot (v : View) : String :=
  String.join (v.dotLines.map (· ++ "\n"))

end SourceAtlas.View
