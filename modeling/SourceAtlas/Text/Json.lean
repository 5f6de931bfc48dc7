/-!
# JSON text

Values of JSON and their text over several lines, with two blanks for each level. Empty arrays
and objects stay on one line.
-/

namespace SourceAtlas

/-- A value of JSON, without fractions and negative numbers. -/
inductive Json where
  | boolean (value : Bool)
  | number (value : Nat)
  | string (text : String)
  | array (items : List Json)
  /-- The fields in the order in which they are written. -/
  | object (fields : List (String × Json))

namespace Json

/-- A digit of base sixteen. -/
def hexDigit (n : Nat) : Char :=
  Nat.digitChar (n % 16)

/-- One character of a quoted text. -/
def escapeChar (c : Char) : List Char :=
  if c == '"' then ['\\', '"']
  else if c == '\\' then ['\\', '\\']
  else if c == '\n' then ['\\', 'n']
  else if c == '\r' then ['\\', 'r']
  else if c == '\t' then ['\\', 't']
  else if c.toNat == 0x08 then ['\\', 'b']
  else if c.toNat == 0x0C then ['\\', 'f']
  else if c.toNat < 0x20 then ['\\', 'u', '0', '0', hexDigit (c.toNat / 16), hexDigit c.toNat]
  else [c]

/-- A text in quotes. -/
def quote (text : String) : String :=
  "\"" ++ String.ofList (text.toList.flatMap escapeChar) ++ "\""

/-- The blanks at the start of a line. -/
def indentation (level : Nat) : String :=
  String.ofList (List.replicate (2 * level) ' ')

/-- Lines between two brackets, one level deeper than the brackets. -/
def bracketed (opening ending : String) (level : Nat) (lines : List String) : String :=
  if lines.isEmpty then opening ++ ending
  else
    opening ++ "\n"
      ++ ",\n".intercalate (lines.map fun line => indentation (level + 1) ++ line)
      ++ "\n" ++ indentation level ++ ending

mutual

/-- The text of a value at a level. -/
def render (level : Nat) : Json → String
  | boolean b => if b then "true" else "false"
  | number n => toString n
  | string s => quote s
  | array items => bracketed "[" "]" level (renderItems (level + 1) items)
  | object fields => bracketed "\x7b" "\x7d" level (renderFields (level + 1) fields)

/-- The texts of the items of an array. -/
def renderItems (level : Nat) : List Json → List String
  | [] => []
  | item :: items => render level item :: renderItems level items

/-- The texts of the fields of an object. -/
def renderFields (level : Nat) : List (String × Json) → List String
  | [] => []
  | (name, value) :: fields =>
    (quote name ++ ": " ++ render level value) :: renderFields level fields

end

/-- The text of a value. -/
def pretty (j : Json) : String :=
  j.render 0

end Json

end SourceAtlas
