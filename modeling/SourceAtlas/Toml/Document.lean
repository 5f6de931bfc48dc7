import SourceAtlas.Toml.Number
import SourceAtlas.Toml.Token

/-!
# TOML documents

A document is a row of sections. A section has a header, which is empty for the lines before
the first header, and keys with values. The sections are put together to a tree: sections that
share the start of their headers belong to one table, a doubled header bracket starts another
element of an array of tables, and a table has only one section of its own.
-/

namespace SourceAtlas.Toml

/-- A value. Fractions and dates are only told apart from the other kinds. -/
inductive Value where
  | string (text : String)
  | integer (value : Int)
  | fraction
  | boolean (value : Bool)
  | date
  | array (items : List Value)
  /-- A table in braces. -/
  | table (entries : List (String × Value))
  /-- A table that arises from keys with dots. -/
  | dotted (entries : List (String × Value))

/-- What is read off the start of a row of tokens. -/
abbrev Reads (α : Type) := List Token → Option (α × List Token)

/-- The tokens behind blanks. -/
def skipBlanks : List Token → List Token
  | .blanks _ :: ts => ts
  | ts => ts

/-- A key. Quoted keys stand on one line and may be empty. -/
def readKey : Reads String
  | .word text :: ts => some (String.ofList text, ts)
  | .string value false :: ts => some (value, ts)
  | _ => none

/-- Further parts of a key behind dots. -/
def readKeyParts : (fuel : Nat) → Reads (List String)
  | 0, _ => none
  | fuel + 1, ts =>
    match skipBlanks ts with
    | .period :: ts => do
      let (part, ts) ← readKey (skipBlanks ts)
      let (parts, ts) ← readKeyParts fuel ts
      return (part :: parts, ts)
    | ts => some ([], ts)

/-- A key with dots. -/
def readDottedKey : Reads (List String) := fun ts => do
  let (part, ts) ← readKey ts
  let (parts, ts) ← readKeyParts (ts.length + 1) ts
  return (part :: parts, ts)

/-- The end of a line, perhaps behind a comment. -/
def readLineEnd : Reads Unit
  | .comment :: .newline :: ts => some ((), ts)
  | [.comment] => some ((), [])
  | .newline :: ts => some ((), ts)
  | [] => some ((), [])
  | _ => none

/-! ### Numbers and dates -/

/-- The digits of a fraction, as one row, and the power of ten that they are multiplied by. -/
def readExponent (digits : List Nat) (scale : Int) (rest : List Char) : Reads Value := fun ts =>
  let finish (run : DigitRun) (ts : List Token) : Option (Value × List Token) :=
    let exponent : Int := valueOf 10 run.digits
    let exponent := if run.negative then -exponent else exponent
    if run.rest.isEmpty && isFinite digits (scale + exponent) then some (.fraction, ts) else none
  match rest with
  | [] => if isFinite digits scale then some (.fraction, ts) else none
  | mark :: after =>
    if mark != 'e' && mark != 'E' then none
    else if after.isEmpty then
      match (match ts with | .plus :: ts => ts | ts => ts) with
      | .word text :: ts => do finish (← digitRun 10 false true text) ts
      | _ => none
    else do finish (← digitRun 10 true true after) ts

/-- A number whose first word is `text`. -/
def readNumber (text : List Char) : Reads Value := fun ts =>
  let based (base : Nat) : Option (Value × List Token) := do
    return (.integer (← integer? base (text.drop 2)), ts)
  if "0x".toList.isPrefixOf text then based 16
  else if "0o".toList.isPrefixOf text then based 8
  else if "0b".toList.isPrefixOf text then based 2
  else if text.contains 'e' || text.contains 'E' then do
    let run ← digitRun 10 true false text
    readExponent run.digits 0 run.rest ts
  else
    match ts with
    | .period :: .word after :: ts => do
      let whole ← digitRun 10 true false text
      let part ← digitRun 10 false true after
      if whole.rest.isEmpty then
        readExponent (whole.digits ++ part.digits) (-(part.digits.length : Int)) part.rest ts
      else none
    | .period :: _ => none
    | ts =>
      if ["inf", "-inf", "nan", "-nan"].contains (String.ofList text) then some (.fraction, ts)
      else do return (.integer (← integer? 10 text), ts)

/-- A colon and a word. -/
def colonWord : List Token → Option (List Token)
  | .colon :: .word _ :: ts => some ts
  | _ => none

/-- The optional parts of a time behind its seconds: a fraction and an offset. -/
def afterSeconds (ts : List Token) : Option (List Token) := do
  let ts ← match ts with
    | .period :: .word _ :: ts => some ts
    | .period :: _ => none
    | ts => some ts
  let ts ← match ts with
    | .plus :: .word _ :: ts => some ts
    | .plus :: _ => none
    | ts => some ts
  match ts with
  | .colon :: _ => colonWord ts
  | ts => some ts

/-- A date or time behind its first word. What the words say is not checked. -/
def readDate (clock : Bool) (ts : List Token) : Option (Value × List Token) := do
  let ts := match ts with
    | .blanks true :: .word _ :: ts => ts
    | ts => ts
  let ts ← match clock, ts with
    | true, .word _ :: ts => (colonWord ts).bind afterSeconds
    | true, _ => none
    | false, .colon :: _ => ((colonWord ts).bind colonWord).bind afterSeconds
    | false, ts => some ts
  return (.date, ts)

/-- The word looks like a date. -/
def isDateLike (text : List Char) : Bool :=
  let s := String.ofList text
  text.contains 'T' || text.contains 't'
    || ((text.drop 1).contains '-' && (s.splitOn "e-").length == 1
      && (s.splitOn "E-").length == 1)

/-- A value that starts with a word. -/
def readWordValue (text : List Char) : Reads Value := fun ts =>
  let s := String.ofList text
  if s = "true" then some (.boolean true, ts)
  else if s = "false" then some (.boolean false, ts)
  else if s = "inf" || s = "nan" || text.head?.any (fun c => c == '-' || c.isDigit) then
    if isDateLike text then readDate false ts
    else
      match ts with
      | .colon :: ts => readDate true ts
      | ts => readNumber text ts
  else none

/-! ### Values -/

/-- Puts a value under a key with dots. A part of the key that is there already has to be a
table that arose from keys with dots. -/
def addDotted : (key : List String) → Value → List (String × Value) →
    Option (List (String × Value))
  | [], _, _ => none
  | [key], value, entries => some (entries ++ [(key, value)])
  | key :: part :: parts, value, entries =>
    match entries.lookup key with
    | some (.dotted inner) => do
      let inner ← addDotted (part :: parts) value inner
      let before := entries.takeWhile (·.1 != key)
      return before ++ [(key, .dotted inner)] ++ entries.drop (before.length + 1)
    | some _ => none
    | none => do
      return entries ++ [(key, .dotted (← addDotted (part :: parts) value []))]

/-- The tokens behind blanks, line ends and comments. -/
def skipLines : (fuel : Nat) → List Token → Option (List Token)
  | 0, _ => none
  | fuel + 1, ts =>
    match skipBlanks ts with
    | .newline :: ts => skipLines fuel ts
    | .comment :: .newline :: ts => skipLines fuel ts
    | [.comment] => some []
    | .comment :: _ => none
    | ts => some ts

mutual

/-- A value. -/
def readValue : (fuel : Nat) → Reads Value
  | 0, _ => none
  | fuel + 1, ts =>
    match ts with
    | .string value _ :: ts => some (.string value, ts)
    | .word text :: ts => readWordValue text ts
    | .plus :: .word text :: ts => readNumber text ts
    | .leftBracket :: ts => do
      let (items, ts) ← readItems fuel ts
      return (.array items, ts)
    | .leftBrace :: ts =>
      match skipBlanks ts with
      | .rightBrace :: ts => some (.table [], ts)
      | ts => do
        let (entries, ts) ← readEntries fuel [] ts
        return (.table entries, ts)
    | _ => none

/-- The items of an array up to its closing bracket. -/
def readItems : (fuel : Nat) → Reads (List Value)
  | 0, _ => none
  | fuel + 1, ts => do
    let ts ← skipLines (ts.length + 1) ts
    match ts with
    | .rightBracket :: ts => some ([], ts)
    | ts => do
      let (item, ts) ← readValue fuel ts
      let ts ← skipLines (ts.length + 1) ts
      match ts with
      | .comma :: ts => do
        let (items, ts) ← readItems fuel ts
        return (item :: items, ts)
      | .rightBracket :: ts => some ([item], ts)
      | _ => none

/-- The entries of a table in braces up to the closing one, behind the given entries. -/
def readEntries : (fuel : Nat) → List (String × Value) → Reads (List (String × Value))
  | 0, _, _ => none
  | fuel + 1, entries, ts => do
    let (key, ts) ← readDottedKey ts
    match skipBlanks ts with
    | .equals :: ts => do
      let (value, ts) ← readValue fuel (skipBlanks ts)
      let entries ← addDotted key value entries
      match skipBlanks ts with
      | .rightBrace :: ts => some (entries, ts)
      | .comma :: ts => readEntries fuel entries (skipBlanks ts)
      | _ => none
    | _ => none

end

/-! ### Sections -/

/-- The lines under a header. -/
structure Section where
  header : List String := []
  /-- The header has doubled brackets. -/
  isElement : Bool := false
  entries : List (String × Value) := []

/-- A header behind its first bracket. -/
def readHeader (ts : List Token) : Option (Section × List Token) := do
  let (isElement, ts) := match ts with
    | .leftBracket :: ts => (true, ts)
    | ts => (false, ts)
  let (header, ts) ← readDottedKey (skipBlanks ts)
  let ts ← match isElement, ts with
    | true, .rightBracket :: .rightBracket :: ts => some ts
    | false, .rightBracket :: ts => some ts
    | _, _ => none
  let (_, ts) ← readLineEnd (skipBlanks ts)
  return ({ header, isElement }, ts)

/-- A key with its value up to the end of the line. -/
def readPair (ts : List Token) : Option ((List String × Value) × List Token) := do
  let (key, ts) ← readDottedKey ts
  match skipBlanks ts with
  | .equals :: ts => do
    let ts := skipBlanks ts
    let (value, ts) ← readValue (ts.length + 1) ts
    let (_, ts) ← readLineEnd (skipBlanks ts)
    return ((key, value), ts)
  | _ => none

/-- The sections of a row of lines, behind the lines of the section `current`. The section
before the first header counts only if it has lines. -/
def readSections : (fuel : Nat) → (current : Section) → List Token → Option (List Section)
  | 0, _, _ => none
  | fuel + 1, current, ts => do
    let finished : List Section :=
      if current.header.isEmpty && current.entries.isEmpty then [] else [current]
    match ← skipLines (ts.length + 1) ts with
    | [] => some finished
    | .leftBracket :: ts => do
      let (next, ts) ← readHeader ts
      return finished ++ (← readSections fuel next ts)
    | ts => do
      let ((key, value), ts) ← readPair ts
      let entries ← addDotted key value current.entries
      readSections fuel { current with entries } ts

/-- The sections of a text. -/
def sections (text : String) : Option (List Section) := do
  let ts ← tokens text
  readSections (ts.length + 1) {} ts

/-! ### The tree -/

/-- What a key of a table stands for. -/
inductive Node where
  /-- A value behind the key. -/
  | value (v : Value)
  /-- A table made of sections. -/
  | table (entries : List (String × Node))
  /-- An array of tables made of sections. -/
  | tables (items : List (List (String × Node)))

/-- The section with the first part of its header left out. -/
def Section.inner (s : Section) : Section :=
  { s with header := s.header.drop 1 }

/-- The section starts an element of the array of tables at hand. -/
def Section.startsElement (s : Section) : Bool :=
  s.isElement && s.header.isEmpty

/-- The sections before the first that starts an element, and the sections of the elements,
each with the section that starts it as an ordinary one in front. -/
def cutElements : List Section → List Section × List (List Section)
  | [] => ([], [])
  | s :: ss =>
    let (own, groups) := cutElements ss
    if s.startsElement then ([], ({ s with isElement := false } :: own) :: groups)
    else (s :: own, groups)

/-- The keys in front of the headers, each once. -/
def leadingKeys (ss : List Section) : List String :=
  (ss.filterMap (·.header.head?)).eraseDups

/-- The entries of the table that is made of the given sections. There is at most one section
without a header, and that one starts no element. -/
def tableOf : (depth : Nat) → List Section → Option (List (String × Node))
  | 0, _ => none
  | depth + 1, ss => do
    let own := ss.filter (·.header.isEmpty)
    if own.length > 1 || own.any (·.isElement) then none
    else
      let values := own.flatMap fun s => s.entries.map fun (key, v) => (key, Node.value v)
      let tables ← (leadingKeys ss).mapM fun key => do
        let inner := (ss.filter (·.header.head? == some key)).map Section.inner
        if inner.head?.any Section.startsElement then
          return (key, Node.tables (← (cutElements inner).2.mapM (tableOf depth)))
        else
          return (key, Node.table (← tableOf depth inner))
      return values ++ tables

/-- A document: its sections and the table that they make. -/
structure Document where
  sections : List Section
  entries : List (String × Node)

/-- The document that a text holds. -/
def document? (text : String) : Option Document := do
  let ss ← sections text
  let depth := (ss.map (·.header.length)).foldl max 0 + 1
  return { sections := ss, entries := ← tableOf depth ss }

end SourceAtlas.Toml
