import SourceAtlas.Settings.Reader

/-!
# The command line

A command line has options, among which some apply everywhere, and a command with options of
its own. It is read from left to right. An option that takes a value is settled only when the
next option or operand comes, or at the end, and its value is examined then. A word that is
not understood is refused at once.
-/

namespace SourceAtlas

/-- How a diagram or tree is written. -/
inductive OutputFormat where
  | dot
  | json
  | text
  deriving DecidableEq, Repr

/-- The word for a format. -/
def OutputFormat.word : OutputFormat → String
  | dot => "dot"
  | json => "json"
  | text => "text"

/-- Which analysis a focused diagram is drawn from. -/
inductive FocusMode where
  /-- From declarations. -/
  | ast
  /-- From references between files. -/
  | simple
  deriving DecidableEq, Repr

/-- The word for a mode. -/
def FocusMode.word : FocusMode → String
  | ast => "ast"
  | simple => "simple"

/-- What is to be done. -/
inductive Command where
  | tree (seed : String) (reverse : Bool) (format : OutputFormat) (output : Option Path)
  | graph (seed : Option String) (format : OutputFormat) (output : Option Path)
  | classes (format : OutputFormat) (output : Option Path)
  | focus (seed : String) (rounds : Option Nat) (mode : FocusMode) (format : OutputFormat)
    (output : Option Path)
  | stats
  deriving DecidableEq, Repr

/-- A command line that was understood. -/
structure CommandLine where
  /-- The root of the project. -/
  root : Path := ⟨"."⟩
  /-- The settings file, if it is not the one below the root. -/
  settingsFile : Option Path := none
  quiet : Bool := false
  command : Option Command := none
  deriving DecidableEq, Repr

/-- The names of the commands. -/
inductive CommandName where
  | tree
  | graph
  | classes
  | focus
  | stats
  deriving DecidableEq, Repr

/-- What help is asked about. -/
inductive HelpTopic where
  | program
  | command (name : CommandName)
  /-- The command that gives help. -/
  | help
  deriving DecidableEq, Repr

/-- Why there is nothing to be done. -/
inductive Refusal where
  /-- The value of an option is missing or not one of those allowed. -/
  | invalidValue
  | unknownArgument
  | invalidSubcommand
  /-- A flag was given a value. -/
  | tooManyValues
  /-- The value of an option cannot be read. -/
  | valueValidation
  /-- An option was given twice. -/
  | argumentConflict
  | missingRequiredArgument
  | displayHelp (topic : HelpTopic)
  | displayVersion
  deriving DecidableEq, Repr

namespace CommandLine

/-! ### Options -/

/-- The options of the program and its commands. -/
inductive OptionName where
  | root
  | config
  | quiet
  | seed
  | reverse
  | format
  | output
  | rounds
  | mode
  | help
  | version
  deriving DecidableEq, Repr

namespace OptionName

/-- The long name, which stands behind two hyphens. -/
def long : OptionName → String
  | root => "root"
  | config => "config"
  | quiet => "quiet"
  | seed => "seed"
  | reverse => "reverse"
  | format => "format"
  | output => "output"
  | rounds => "rounds"
  | mode => "mode"
  | help => "help"
  | version => "version"

/-- The short name, which stands behind one hyphen. -/
def short? : OptionName → Option Char
  | root => some 'r'
  | config => some 'c'
  | quiet => some 'q'
  | seed => some 's'
  | format => some 'f'
  | output => some 'o'
  | mode => some 'm'
  | help => some 'h'
  | version => some 'V'
  | reverse => none
  | rounds => none

/-- The option takes a value. -/
def takesValue : OptionName → Bool
  | quiet | reverse | help | version => false
  | _ => true

end OptionName

/-- The format with the given word. -/
def formatNamed? (word : String) : Option OutputFormat :=
  [OutputFormat.dot, .json, .text].find? (·.word == word)

/-- The mode with the given word. -/
def modeNamed? (word : String) : Option FocusMode :=
  [FocusMode.ast, .simple].find? (·.word == word)

/-- The largest count. -/
def countLimit : Nat := UInt64.size - 1

/-- The count that a text stands for: digits, perhaps with a plus sign in front. -/
def count? (text : String) : Option Nat :=
  let digits := match text.toList with
    | '+' :: cs => cs
    | cs => cs
  let value := digits.foldl (fun n c => n * 10 + (c.toNat - '0'.toNat)) 0
  if !digits.isEmpty && digits.all Char.isDigit && value ≤ countLimit then some value else none

/-- Why the value of an option is refused. -/
def refused? (name : OptionName) (value : String) : Option Refusal :=
  match name with
  | .root | .config | .output => if value.isEmpty then some .invalidValue else none
  | .format => if (formatNamed? value).isNone then some .invalidValue else none
  | .mode => if (modeNamed? value).isNone then some .invalidValue else none
  | .rounds => if (count? value).isNone then some .valueValidation else none
  | _ => none

/-! ### Reading one level -/

/-- Where words are read: behind the name of a command, or before it. -/
inductive Level where
  | program
  | command (name : CommandName)
  deriving DecidableEq, Repr

/-- The options that apply everywhere. -/
def globals : List OptionName := [.root, .config, .quiet, .help]

namespace Level

/-- The options that are understood. -/
def options : Level → List OptionName
  | program => .version :: globals
  | command .tree => [.reverse, .format, .output] ++ globals
  | command .graph => [.seed, .format, .output] ++ globals
  | command .classes => [.format, .output] ++ globals
  | command .focus => [.rounds, .mode, .format, .output] ++ globals
  | command .stats => globals

/-- One operand is needed, and no more than one is taken. -/
def takesSeed : Level → Bool
  | command .tree | command .focus => true
  | _ => false

/-- What the option for help explains. -/
def topic : Level → HelpTopic
  | program => .program
  | command name => .command name

/-- Why an operand that is not taken is refused. -/
def strayOperand : Level → Refusal
  | program => .invalidSubcommand
  | command _ => .unknownArgument

/-- The option with a long name. -/
def long? (level : Level) (name : String) : Option OptionName :=
  level.options.find? (·.long == name)

/-- The option with a short name. -/
def short? (level : Level) (c : Char) : Option OptionName :=
  level.options.find? (·.short? == some c)

end Level

/-- What has been read at a level. -/
structure Progress where
  /-- The settled options with their values. -/
  given : List (OptionName × String) := []
  /-- The option that is not settled yet, perhaps without its value. -/
  pending : Option (OptionName × Option String) := none
  /-- The operand. -/
  seed : Option String := none
  /-- Two hyphens were read, behind which there are only operands. -/
  operandsOnly : Bool := false

namespace Progress

/-- The option was given. -/
def has (p : Progress) (name : OptionName) : Bool :=
  p.given.any (·.1 == name)

/-- The value that was given to an option. -/
def value? (p : Progress) (name : OptionName) : Option String :=
  p.given.lookup name

/-- Settles an option with a value. -/
def give (p : Progress) (name : OptionName) (value : String) : Except Refusal Progress :=
  if p.has name then .error .argumentConflict
  else
    match refused? name value with
    | some refusal => .error refusal
    | none => .ok { p with given := p.given ++ [(name, value)] }

/-- Settles the pending option. -/
def settle (p : Progress) : Except Refusal Progress :=
  match p.pending with
  | none => .ok p
  | some (_, none) => .error .invalidValue
  | some (name, some value) => { p with pending := none }.give name value

/-- The pending option still needs its value. -/
def awaitsValue (p : Progress) : Bool :=
  p.pending.any (·.2.isNone)

/-- Behind an option, perhaps with a value in the same word. -/
def take (p : Progress) (level : Level) (name : OptionName) (value : Option String) :
    Except Refusal Progress := do
  if name.takesValue then
    let p ← p.settle
    match value with
    | some v => p.give name v
    | none => return { p with pending := some (name, none) }
  else
    let p ← p.settle
    match name with
    | .help => .error (.displayHelp level.topic)
    | .version => .error .displayVersion
    | _ => p.give name ""

end Progress

/-- Reads a word with two hyphens in front, behind which `text` stands. -/
def readLong (level : Level) (p : Progress) (text : List Char) : Except Refusal Progress :=
  let name := String.ofList (text.takeWhile (· != '='))
  let value := (text.dropWhile (· != '=')).tail?.map String.ofList
  match level.long? name with
  | none => .error .unknownArgument
  | some option =>
    if !option.takesValue && value.isSome then .error .tooManyValues
    else p.take level option value

/-- Reads short options, of which the last may take the rest of the word as its value. -/
def readShort (level : Level) (p : Progress) : List Char → Except Refusal Progress
  | [] => .ok p
  | c :: cs =>
    match level.short? c with
    | none => .error .unknownArgument
    | some option =>
      if option.takesValue then
        match cs with
        | [] => p.take level option none
        | '=' :: value => p.take level option (some (String.ofList value))
        | value => p.take level option (some (String.ofList value))
      else do
        readShort level (← p.take level option none) cs

/-- Reads one word that is no command. -/
def readWord (level : Level) (p : Progress) (word : String) : Except Refusal Progress :=
  let operand : Except Refusal Progress :=
    if level.takesSeed && p.seed.isNone then do
      return { (← p.settle) with seed := some word }
    else .error level.strayOperand
  if p.operandsOnly then operand
  else
    match word.toList with
    | ['-', '-'] => .ok { p with operandsOnly := true }
    | '-' :: '-' :: text => readLong level p text
    | '-' :: c :: cs => readShort level p (c :: cs)
    | _ =>
      if p.awaitsValue then
        .ok { p with pending := p.pending.map fun (name, _) => (name, some word) }
      else operand

/-! ### Commands -/

/-- The word for a command. -/
def commandWord : CommandName → String
  | .tree => "tree"
  | .graph => "graph"
  | .classes => "classes"
  | .focus => "focus"
  | .stats => "stats"

/-- The command with the given word. -/
def commandNamed? (word : String) : Option CommandName :=
  [CommandName.tree, .graph, .classes, .focus, .stats].find? (commandWord · == word)

/-- The word for the command that gives help. -/
def helpWord : String := "help"

/-- What comes of asking for help with the given words. -/
def helpOn : List String → Refusal
  | [] => .displayHelp .program
  | [word] =>
    if word == helpWord then .displayHelp .help
    else ((commandNamed? word).map fun name => .displayHelp (.command name)).getD
      .invalidSubcommand
  | _ => .invalidSubcommand

/-- Reads the words behind the name of a command to their end. -/
def readCommand (name : CommandName) (words : List String) : Except Refusal Progress := do
  let level := Level.command name
  let p ← words.foldlM (readWord level) {}
  let p ← p.settle
  if level.takesSeed && p.seed.isNone then .error .missingRequiredArgument
  else return p

/-- The command that was read. -/
def commandOf (name : CommandName) (p : Progress) : Command :=
  let format (standard : OutputFormat) : OutputFormat :=
    ((p.value? .format).bind formatNamed?).getD standard
  let output := (p.value? .output).map Path.mk
  let seed := p.seed.getD ""
  match name with
  | .tree => .tree seed (p.has .reverse) (format .text) output
  | .graph => .graph (p.value? .seed) (format .dot) output
  | .classes => .classes (format .dot) output
  | .focus =>
    .focus seed ((p.value? .rounds).bind count?)
      (((p.value? .mode).bind modeNamed?).getD .ast) (format .dot) output
  | .stats => .stats

/-- The command line from what was read before the name of the command and behind it. What
stands behind it counts first. -/
def assemble (outer : Progress) (inner : Option (CommandName × Progress)) : CommandLine :=
  let value? (name : OptionName) : Option String :=
    (inner.bind fun (_, p) => p.value? name) <|> outer.value? name
  { root := ((value? .root).map Path.mk).getD ⟨"."⟩
    settingsFile := (value? .config).map Path.mk
    quiet := (value? .quiet).isSome
    command := inner.map fun (name, p) => commandOf name p }

/-- Reads the words of a command line, behind others that made the given progress. -/
def readFrom (p : Progress) : List String → Except Refusal CommandLine
  | [] => do return assemble (← p.settle) none
  | word :: words =>
    if p.operandsOnly && (word == helpWord || (commandNamed? word).isSome) then
      .error .unknownArgument
    else if p.operandsOnly || p.awaitsValue then do
      readFrom (← readWord .program p word) words
    else if word == helpWord then .error (helpOn words)
    else
      match commandNamed? word with
      | some name => do
        let inner ← readCommand name words
        return assemble (← p.settle) (some (name, inner))
      | none => do readFrom (← readWord .program p word) words

/-- Reads the words of a command line. -/
def parse (words : List String) : Except Refusal CommandLine :=
  readFrom {} words

/-! ### What follows from it -/

/-- The settings file. -/
def settingsPath (c : CommandLine) : Path :=
  c.settingsFile.getD (Settings.standardPath c.root)

/-- The settings that apply. -/
def settings (t : FileTree) (c : CommandLine) : Settings :=
  Settings.load t c.settingsPath

end CommandLine

end SourceAtlas
