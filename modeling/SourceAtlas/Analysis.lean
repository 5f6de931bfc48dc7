import SourceAtlas.Catalog
import SourceAtlas.Graph
import SourceAtlas.Java.Unit
import SourceAtlas.Language
import SourceAtlas.Scan

/-!
# Analyses

Two analyses of the source units of a project. The first links a unit to all units whose file
stem it mentions. The second parses the units and collects their declarations. A unit that
cannot be read or parsed is passed over, so that one bad file does not spoil the rest.
-/

namespace SourceAtlas

/-- The text of a source file. Bytes that are no text are dropped. -/
def readSource (t : FileTree) (p : Path) : Except Error String :=
  match t.read p with
  | .ok bytes => .ok (String.ofList (Text.decodeLossy bytes))
  | .error reason => .error (.fileRead p.text reason.message)

/-- The references in what was read of a file; where nothing could be read there are none. -/
def ReferenceFilter.referencesIn (f : ReferenceFilter) : Except Error String → List String
  | .ok text => f.references text
  | .error _ => []

/-- The references of the file at a path; an unreadable file has none. -/
def fileReferences (t : FileTree) (f : ReferenceFilter) (p : Path) : List String :=
  f.referencesIn (readSource t p)

namespace Graph

/-- The graph with the nodes of all units. -/
def ofUnits (units : List SourceUnit) : Graph :=
  units.foldl (fun g u => (g.addNode u.identity).2) .empty

/-- The links of one unit: to every other unit whose file stem is among the symbols, in the
order of symbols and units. -/
def linksOf (units : List SourceUnit) (u : SourceUnit) (symbols : List String) : List Edge :=
  symbols.flatMap fun symbol =>
    (units.filter fun v => v.simpleName == symbol && v.identity != u.identity).map fun v =>
      ⟨u.identity, v.identity, .referencing⟩

/-- The graph in which every unit is linked to the units that it mentions. -/
def ofReferences (units : List SourceUnit) (references : SourceUnit → List String) : Graph :=
  (units.flatMap fun u => linksOf units u (references u)).foldl
    (fun g e => (g.addEdge e).2) (ofUnits units)

/-- The graph of units whose texts are given. Of several texts for one identity the last
counts. -/
def ofSources (f : ReferenceFilter) (sources : List (SourceUnit × String)) : Graph :=
  ofReferences (sources.map Prod.fst) fun u =>
    match sources.reverse.find? (·.1.identity == u.identity) with
    | some (_, text) => f.references text
    | none => []

/-- The graph of units whose texts are read from their files. -/
def ofFiles (read : Path → Except Error String) (f : ReferenceFilter)
    (units : List SourceUnit) : Graph :=
  ofReferences units fun u => f.referencesIn (read u.path)

end Graph

namespace Catalog

/-- Adds a unit, unless it cannot be read or parsed. -/
def tryUnit (read : Path → Except Error String) (parse : String → Except Error ParsedUnit)
    (c : Catalog) (u : SourceUnit) : Catalog :=
  match (read u.path).bind parse with
  | .ok parsed => c.addUnit parsed u.path
  | .error _ => c

/-- The catalog of the units that can be read and parsed. -/
def ofUnits (read : Path → Except Error String) (parse : String → Except Error ParsedUnit)
    (units : List SourceUnit) : Catalog :=
  units.foldl (tryUnit read parse) .empty

end Catalog

namespace Analysis

/-- The reference graph of given units. -/
def graphOf (t : FileTree) (s : Settings) (units : List SourceUnit) : Graph :=
  Graph.ofFiles (readSource t) s.references units

/-- The catalog of given units. -/
def catalogOf (t : FileTree) (units : List SourceUnit) : Catalog :=
  Catalog.ofUnits (readSource t) Java.parseUnit units

/-- The reference graph of the project below a root. -/
def references (t : FileTree) (s : Settings) (root : Path) : Except Error Graph := do
  return graphOf t s (← Scan.units t s.scan root)

/-- The catalog of the project below a root. Units in a language without a parser are left
out. -/
def types (t : FileTree) (s : Settings) (root : Path) : Except Error Catalog := do
  let units ← Scan.units t s.scan root
  return catalogOf t (units.filter fun u => (Language.ofPath? u.path).isSome)

end Analysis

end SourceAtlas
