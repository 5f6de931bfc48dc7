import SourceAtlas.Analysis
import SourceAtlas.CommandLine
import SourceAtlas.Report
import SourceAtlas.View.Dot
import SourceAtlas.View.Outline

/-!
# The program

A run of the program as a function of the files and the words of the command line. It ends
with an exit code, the texts for both output streams, and the files as they are afterwards. What
was put out before a run fails stays as it is.
-/

namespace SourceAtlas

/-- The help text. -/
def helpText : String :=
  "refgraph - reference graphs for Java source trees

Simple mode (file references):
  tree <seed>           Dependency tree rooted at a file
                        (--reverse for what references it)
  graph                 Whole reference graph
  graph --seed <seed>   Everything reachable from a file

AST mode (type relationships):
  classes               Class diagram with extends/implements edges

Either mode:
  focus <seed>          Bounded neighborhood around a file or type
                        (--mode ast|simple, --rounds N)

Other:
  stats                 Unit, edge and type counts

Options:
  -r, --root <PATH>     Project root (default: .)
  -c, --config <FILE>   Config file (default: <root>/.refgraph.toml)
  -q, --quiet           Only log warnings
  -f, --format <FMT>    dot | json | text
  -o, --output <FILE>   Write to a file instead of stdout

Set RUST_LOG=debug for per-file detail.
"

/-- The version text. -/
def versionText : String := "refgraph 0.1.0\n"

/-- Why a command did not succeed. -/
inductive Failure where
  | analysis (error : Error)
  /-- A tree was asked for in a format for diagrams. -/
  | treeAsDiagram
  deriving DecidableEq, Repr

namespace Failure

/-- The exit code. A seed that names nothing has a code of its own. -/
def exitCode : Failure → Nat
  | analysis (.seedNotFound _ _) => 2
  | _ => 1

/-- The lines that report the failure. -/
def lines : Failure → List String
  | analysis (.seedNotFound seed hints) =>
    ("Error: no file or type matches \x27" ++ seed ++ "\x27")
      :: (if hints.isEmpty then [] else "Available:" :: hints.map ("  " ++ ·))
  | analysis error =>
    ["Error: " ++ error.message ++ ((error.reason?.map (": " ++ ·)).getD "")]
  | treeAsDiagram => ["Error: tree output is text or json"]

/-- The report of the failure. -/
def report (f : Failure) : String :=
  String.join (f.lines.map (· ++ "\n"))

end Failure

/-- A text with a line break at its end. -/
def endLine (text : String) : String :=
  if text.toList.getLast? == some '\n' then text else text ++ "\n"

/-- What has been put out. -/
structure Product where
  /-- What is printed. -/
  printed : String
  /-- The files as they are. -/
  files : FileTree

/-- A part of a run. It may fail, but does not take back what has been put out. -/
abbrev Action := EStateM Failure Product

/-- Prints a text behind what has been printed. -/
def print (text : String) : Action Unit :=
  modify fun p => { p with printed := p.printed ++ text }

/-- Puts out a text, to a file or to be printed. -/
def emit (t : FileTree) (text : String) (output : Option Path) : Except Error Product :=
  match output with
  | none => .ok { printed := endLine text, files := t }
  | some p =>
    match t.write p (endLine text).toUTF8.toList with
    | .ok files => .ok { printed := "", files := files }
    | .error e => .error (.output e.message)

/-- A view in a format. -/
def View.render (v : View) : OutputFormat → String
  | .dot => v.toDot
  | .json => v.toJson.pretty
  | .text => v.toText

/-- The text of an answer to a question for a tree. -/
def TreeAnswer.render (a : TreeAnswer) : OutputFormat → Except Failure String
  | .dot => .error .treeAsDiagram
  | .json => .ok a.toJson.pretty
  | .text => .ok a.text

/-- The text of an answer to a question for a focused diagram. -/
def FocusAnswer.render (a : FocusAnswer) : OutputFormat → String
  | .json => a.toJson.pretty
  | format => a.view.render format

namespace Command

/-- The text that a command produces. -/
def text (t : FileTree) (s : Settings) (root : Path) : Command → Except Failure String
  | tree seed reverse format _ => do
    let g ← (Analysis.references t s root).mapError .analysis
    let direction := if reverse then Direction.dependents else Direction.dependencies
    let a ← (Query.tree t g root seed direction s.hintLimit).ensureFound.mapError .analysis
    a.render format
  | graph seed format _ => do
    let g ← (Analysis.references t s root).mapError .analysis
    match seed with
    | none => return g.fullView.render format
    | some name =>
      let identity ← (Seed.findUnit t g root name s.hintLimit).mapError .analysis
      return (g.reachableView identity).render format
  | classes format _ => do
    let c ← (Analysis.types t s root).mapError .analysis
    return (c.classView (c.resolver s.tieBreak)).render format
  | focus seed rounds mode format _ => do
    let rounds := rounds.getD s.rounds
    let a ← match mode with
      | .ast => do
        let c ← (Analysis.types t s root).mapError .analysis
        pure (Query.focusTypes t c (c.resolver s.tieBreak) root seed rounds s.hintLimit)
      | .simple => do
        let g ← (Analysis.references t s root).mapError .analysis
        pure (Query.focusUnits t g root seed rounds s.hintLimit)
    let a ← a.ensureFound.mapError .analysis
    return a.render format
  | stats => do
    let g ← (Analysis.references t s root).mapError .analysis
    let c ← (Analysis.types t s root).mapError .analysis
    let scan := Scan.stats t s.scan root
    return ((Query.stats g c).toJson scan.byExtension).pretty

/-- Where the text of a command goes, if it is not printed. -/
def output : Command → Option Path
  | tree _ _ _ output => output
  | graph _ _ output => output
  | classes _ output => output
  | focus _ _ _ _ output => output
  | stats => none

/-- Carries out a command. -/
def perform (s : Settings) (root : Path) (c : Command) : Action Unit := do
  let p ← get
  match c.text p.files s root with
  | .error f => throw f
  | .ok text =>
    match emit p.files text c.output with
    | .error e => throw (.analysis e)
    | .ok product => do
      set { p with files := product.files }
      print product.printed

end Command

/-- How a run ended. -/
structure Outcome where
  exitCode : Nat
  printed : String
  /-- What is reported on the second stream. -/
  reported : String
  files : FileTree

namespace Outcome

/-- The end of a run that succeeds. -/
def success (p : Product) : Outcome where
  exitCode := 0
  printed := p.printed
  reported := ""
  files := p.files

/-- The end of a run that fails. -/
def failure (p : Product) (f : Failure) : Outcome where
  exitCode := f.exitCode
  printed := p.printed
  reported := f.report
  files := p.files

end Outcome

namespace CommandLine

/-- Carries out what a command line asks for. -/
def perform (c : CommandLine) : Action Unit := do
  match c.command with
  | none => print ("\n" ++ helpText)
  | some command => command.perform (c.settings (← get).files) c.root

/-- The outcome of a command line that was understood. -/
def outcome (t : FileTree) (c : CommandLine) : Outcome :=
  match c.perform { printed := "", files := t } with
  | .ok _ p => .success p
  | .error f p => .failure p f

end CommandLine

/-- What is said about a refusal. -/
def Refusal.message : Refusal → String
  | invalidValue => "invalid value for an option"
  | unknownArgument => "unexpected argument"
  | invalidSubcommand => "unrecognized command"
  | tooManyValues => "unexpected value for a flag"
  | valueValidation => "malformed value for an option"
  | argumentConflict => "an option is given more than once"
  | missingRequiredArgument => "a required argument is missing"
  | displayHelp _ => "help"
  | displayVersion => "version"

/-- The outcome of a refusal. -/
def Refusal.outcome (t : FileTree) : Refusal → Outcome
  | displayHelp _ => .success { printed := helpText, files := t }
  | displayVersion => .success { printed := versionText, files := t }
  | refusal =>
    { exitCode := 2, printed := "", reported := "error: " ++ refusal.message ++ "\n", files := t }

/-- A run of the program. -/
def run (t : FileTree) (words : List String) : Outcome :=
  match CommandLine.parse words with
  | .ok c => c.outcome t
  | .error refusal => refusal.outcome t

end SourceAtlas
