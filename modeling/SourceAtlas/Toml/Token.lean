/-!
# Tokens of TOML text

A TOML text is cut into signs, words, strings, stretches of blanks, comments and line ends. A
byte order mark at the start is passed over, and a carriage return before a line end does not
count. Words serve as bare keys, numbers, dates and truth values.
-/

namespace SourceAtlas.Toml

/-- A token. -/
inductive Token where
  | newline
  /-- Blanks and tabs, of which it matters whether they are one single blank. -/
  | blanks (single : Bool)
  | comment
  | equals
  | period
  | comma
  | colon
  | plus
  | leftBrace
  | rightBrace
  | leftBracket
  | rightBracket
  /-- A run of letters, digits, hyphens and low lines. -/
  | word (text : List Char)
  /-- A string with its value, which may have been written over several lines. -/
  | string (value : String) (multiline : Bool)
  deriving DecidableEq, Repr

/-- The text without the carriage returns before line ends. -/
def foldLineEnds : List Char → List Char
  | '\r' :: '\n' :: cs => '\n' :: foldLineEnds cs
  | c :: cs => c :: foldLineEnds cs
  | [] => []

/-- A character of words. -/
def isWordChar (c : Char) : Bool :=
  c.isAlphanum || c == '-' || c == '_'

/-- A blank inside a line. -/
def isGap (c : Char) : Bool :=
  c == ' ' || c == '\t'

/-- A character of comments. -/
def isCommentChar (c : Char) : Bool :=
  c == '\t' || 0x20 ≤ c.toNat

/-- A character that may stand in a string as it is. -/
def isStringChar (c : Char) : Bool :=
  c == '\t' || (0x20 ≤ c.toNat && c.toNat != 0x7F)

/-! ### Strings -/

/-- The value of a digit of base sixteen. -/
def hexValue? (c : Char) : Option Nat :=
  if c.isDigit then some (c.toNat - '0'.toNat)
  else if 'a' ≤ c && c ≤ 'f' then some (c.toNat - 'a'.toNat + 10)
  else if 'A' ≤ c && c ≤ 'F' then some (c.toNat - 'A'.toNat + 10)
  else none

/-- The number that is written with the next `n` digits of base sixteen. -/
def readHex : (n : Nat) → (value : Nat) → List Char → Option (Nat × List Char)
  | 0, value, cs => some (value, cs)
  | n + 1, value, c :: cs => do readHex n (value * 16 + (← hexValue? c)) cs
  | _ + 1, _, [] => none

/-- The character with a code point. -/
def charOf? (n : Nat) : Option Char :=
  if n.isValidChar then some (Char.ofNat n) else none

/-- The rest of a text behind a backslash at the end of a line: line ends and blanks are
passed over. -/
def afterContinuation (cs : List Char) : Option (List Char) :=
  match cs.dropWhile isGap with
  | '\n' :: rest => some (rest.dropWhile fun c => isGap c || c == '\n')
  | _ => none

/-- What an escape stands for, behind its backslash. -/
def readEscape (multiline : Bool) : List Char → Option (List Char × List Char)
  | '"' :: cs => some (['"'], cs)
  | '\\' :: cs => some (['\\'], cs)
  | 'b' :: cs => some (['\x08'], cs)
  | 'f' :: cs => some (['\x0c'], cs)
  | 'n' :: cs => some (['\n'], cs)
  | 'r' :: cs => some (['\r'], cs)
  | 't' :: cs => some (['\t'], cs)
  | 'u' :: cs => do
    let (value, rest) ← readHex 4 0 cs
    return ([← charOf? value], rest)
  | 'U' :: cs => do
    let (value, rest) ← readHex 8 0 cs
    return ([← charOf? value], rest)
  | cs => if multiline then (afterContinuation cs).map fun rest => ([], rest) else none

/-- The end of a string over several lines, behind three quotes: up to two more quotes still
belong to the string. -/
def blockEnd (quote : Char) : List Char → List Char × List Char
  | c :: d :: cs =>
    if c == quote then
      if d == quote then ([quote, quote], cs) else ([quote], d :: cs)
    else ([], c :: d :: cs)
  | [c] => if c == quote then ([quote], []) else ([], [c])
  | [] => ([], [])

/-- The characters of a string up to its closing quotes, and the text behind them. -/
def readChars (quote : Char) (escapes multiline : Bool) :
    (fuel : Nat) → List Char → Option (List Char × List Char)
  | 0, _ => none
  | _ + 1, [] => none
  | fuel + 1, c :: cs =>
    if c == quote then
      if !multiline then some ([], cs)
      else if [quote, quote].isPrefixOf cs then some (blockEnd quote (cs.drop 2))
      else do
        let (value, rest) ← readChars quote escapes multiline fuel cs
        return (c :: value, rest)
    else if c == '\\' && escapes then do
      let (meaning, rest) ← readEscape multiline cs
      let (value, rest) ← readChars quote escapes multiline fuel rest
      return (meaning ++ value, rest)
    else if isStringChar c || (multiline && c == '\n') then do
      let (value, rest) ← readChars quote escapes multiline fuel cs
      return (c :: value, rest)
    else none

/-- A string behind its first quote. A line end right behind three opening quotes does not
count. -/
def readString (quote : Char) (cs : List Char) : Option (Token × List Char) :=
  let escapes := quote == '"'
  let finish (multiline : Bool) (cs : List Char) : Option (Token × List Char) := do
    let (value, rest) ← readChars quote escapes multiline (cs.length + 1) cs
    return (.string (String.ofList value) multiline, rest)
  if [quote, quote].isPrefixOf cs then
    match cs.drop 2 with
    | '\n' :: rest => finish true rest
    | rest => finish true rest
  else if [quote].isPrefixOf cs then
    some (.string "" false, cs.drop 1)
  else
    finish false cs

/-! ### All tokens -/

/-- The token that a character stands for by itself. -/
def sign? : Char → Option Token
  | '\n' => some .newline
  | '=' => some .equals
  | '.' => some .period
  | ',' => some .comma
  | ':' => some .colon
  | '+' => some .plus
  | '\x7b' => some .leftBrace
  | '\x7d' => some .rightBrace
  | '[' => some .leftBracket
  | ']' => some .rightBracket
  | _ => none

/-- The token that starts with the character `c`. -/
def readToken (c : Char) (cs : List Char) : Option (Token × List Char) :=
  match sign? c with
  | some token => some (token, cs)
  | none =>
    if isGap c then
      some (.blanks (c == ' ' && !cs.head?.any isGap), cs.dropWhile isGap)
    else if c == '#' then some (.comment, cs.dropWhile isCommentChar)
    else if c == '"' || c == '\x27' then readString c cs
    else if isWordChar c then
      some (.word (c :: cs.takeWhile isWordChar), cs.dropWhile isWordChar)
    else none

/-- The tokens of a text. -/
def readTokens : (fuel : Nat) → List Char → Option (List Token)
  | _, [] => some []
  | 0, _ :: _ => none
  | fuel + 1, c :: cs => do
    let (token, rest) ← readToken c cs
    return token :: (← readTokens fuel rest)

/-- The tokens of a whole text. -/
def tokens (text : String) : Option (List Token) :=
  let cs := foldLineEnds text.toList
  let cs := if cs.head?.any (·.toNat == 0xFEFF) then cs.drop 1 else cs
  readTokens cs.length cs

end SourceAtlas.Toml
