import SourceAtlas.FileTree
import SourceAtlas.Settings
import SourceAtlas.Toml.Document

/-!
# Settings files

Settings are written as a TOML document with one table for each group of settings. All of them
are optional, and names that mean nothing are passed over. A group may also be given as an
array of its settings in their order.
-/

namespace SourceAtlas.Settings

open Toml (Value Node Section Document)

/-- The name of the settings file that is looked for below a root. -/
def fileName : String := ".refgraph.toml"

/-! ### Single settings -/

/-- A list of texts. -/
def texts? : Node → Option (List String)
  | .value (.array items) => items.mapM fun
    | .string text => some text
    | _ => none
  | _ => none

/-- A truth value. -/
def flag? : Node → Option Bool
  | .value (.boolean b) => some b
  | _ => none

/-- A count. -/
def count? : Node → Option Nat
  | .value (.integer n) => if n < 0 then none else some n.toNat
  | _ => none

/-- The tie break with the given name. -/
def tieBreakNamed? (name : String) : Option TieBreak :=
  [TieBreak.firstLexical, TieBreak.shortestName].find? (·.word == name)

/-- A tie break: its name, or an empty table under its name. Where the table comes from a
header, the document holds no other section. -/
def tieBreak? (sections : List Section) : Node → Option TieBreak
  | .value (.string name) => tieBreakNamed? name
  | .value (.table [(name, .table [])]) => tieBreakNamed? name
  | .value _ => none
  | _ =>
    match sections with
    | [only] => if only.entries.isEmpty then only.header.getLast?.bind tieBreakNamed? else none
    | _ => none

/-! ### Groups -/

/-- The only entry with a key, or none. Two entries with one key are refused. -/
def single? (entries : List (String × Node)) (key : String) : Option (Option Node) :=
  match entries.filter (·.1 == key) with
  | [] => some none
  | [(_, node)] => some (some node)
  | _ => none

/-- The settings of a group by name, or by place where the group is an array. A date passes
for a group without settings. -/
def group? (names : List String) : Node → Option (List (Option Node))
  | .table entries => names.mapM (single? entries)
  | .value (.table entries) | .value (.dotted entries) =>
    names.mapM (single? (entries.map fun (key, v) => (key, .value v)))
  | .value (.array items) =>
    if names.length < items.length then none
    else some ((List.range names.length).map fun i => items[i]?.map .value)
  | .value .date => some (names.map fun _ => none)
  | _ => none

/-- The setting at a place of a group, or its standard value. -/
def setting? {α : Type} (settings : List (Option Node)) (place : Nat) (read : Node → Option α)
    (standard : α) : Option α :=
  match (settings[place]?).join with
  | some node => read node
  | none => some standard

/-- The settings of the group with a name, all missing if the group is. -/
def groupNamed? (d : Document) (name : String) (names : List String) :
    Option (List (Option Node)) := do
  match ← single? d.entries name with
  | some node => group? names node
  | none => some (names.map fun _ => none)

/-- The settings that a document holds. -/
def ofDocument? (d : Document) : Option Settings := do
  let standard : Settings := {}
  let scan ← groupNamed? d "scan" ["extensions", "include_hidden", "respect_gitignore"]
  let references ← groupNamed? d "references" ["excluded_types", "require_uppercase"]
  let resolver ← groupNamed? d "resolver" ["fuzzy_tie_break"]
  let focus ← groupNamed? d "focus" ["rounds"]
  let output ← groupNamed? d "output" ["hint_limit"]
  return {
    scan := {
      extensions := ← setting? scan 0 texts? standard.scan.extensions
      includeHidden := ← setting? scan 1 flag? standard.scan.includeHidden
      respectGitignore := ← setting? scan 2 flag? standard.scan.respectGitignore }
    references := {
      excluded := Ordered.ofList (← setting? references 0 texts? standard.references.excluded)
      requireCapital := ← setting? references 1 flag? standard.references.requireCapital }
    tieBreak := ← setting? resolver 0 (tieBreak? d.sections) standard.tieBreak
    rounds := ← setting? focus 0 count? standard.rounds
    hintLimit := ← setting? output 0 count? standard.hintLimit }

/-- The settings that a text holds. -/
def ofText (text : String) : Except Error Settings :=
  match (Toml.document? text).bind ofDocument? with
  | some settings => .ok settings
  | none => .error (.settings "malformed settings")

/-! ### Files -/

/-- The place of the settings file below a root. -/
def standardPath (root : Path) : Path :=
  root.join ⟨fileName⟩

/-- The settings in the file at a path. -/
def tryLoad (t : FileTree) (p : Path) : Except Error Settings :=
  match t.readText p with
  | .ok text => ofText text
  | .error reason => .error (.fileRead p.text reason.message)

/-- The settings in the file at a path, or the standard ones if there is any problem. -/
def load (t : FileTree) (p : Path) : Settings :=
  match tryLoad t p with
  | .ok settings => settings
  | .error _ => {}

end SourceAtlas.Settings
