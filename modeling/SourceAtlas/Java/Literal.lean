/-!
# Literals

The lengths of number and character literals at the start of a text, and the stretches of
string literals. A number literal is the longest of the forms that fit.
-/

namespace SourceAtlas.Java

/-! ### Numbers -/

/-- A digit of base eight. -/
def isOctal (c : Char) : Bool := '0' ≤ c && c ≤ '7'

/-- A digit of base two. -/
def isBinary (c : Char) : Bool := c == '0' || c == '1'

/-- A digit of base sixteen. -/
def isHex (c : Char) : Bool :=
  c.isDigit || ('a' ≤ c && c ≤ 'f') || ('A' ≤ c && c ≤ 'F')

/-- The number of further digits, with low lines between them. Unless `runs` is set, low lines
stand alone. -/
def moreDigits (isDigit : Char → Bool) (runs : Bool) : List Char → Nat
  | [] => 0
  | c :: cs =>
    if isDigit c then moreDigits isDigit runs cs + 1
    else if c == '_' && ((if runs then cs.dropWhile (· == '_') else cs).head?.any isDigit) then
      moreDigits isDigit runs cs + 1
    else 0

/-- The length of the digits at the start of a text, with low lines between them. -/
def digits (isDigit : Char → Bool) (cs : List Char) : Option Nat :=
  if cs.head?.any isDigit then some (moreDigits isDigit false cs) else none

/-- The length of a decimal number that has no idle zero in front. Behind the first digit only
one low line may stand, further on there may be runs of them. -/
def plainDigits : List Char → Option Nat
  | c :: cs =>
    if c == '0' then some 1
    else if c.isDigit then
      let rest := if cs.head? == some '_' then cs.drop 1 else cs
      if rest.head?.any Char.isDigit then
        some (1 + (cs.length - rest.length) + moreDigits Char.isDigit true rest)
      else some 1
    else none
  | [] => none

/-- The length of one of the given characters, or zero. -/
def oneOf (chars : List Char) (cs : List Char) : Nat :=
  if cs.head?.any chars.contains then 1 else 0

/-- The length of an exponent, or zero. -/
def exponent (cs : List Char) : Nat :=
  match cs with
  | mark :: rest =>
    if mark == 'e' || mark == 'E' then
      let signLength := oneOf ['-', '+'] rest
      match digits Char.isDigit (rest.drop signLength) with
      | some n => 1 + signLength + n
      | none => 0
    else 0
  | [] => 0

/-- The end of a literal that was read up to `n` characters, with an optional suffix. -/
def withSuffix (suffixes : List Char) (cs : List Char) (n : Nat) : Nat :=
  n + oneOf suffixes (cs.drop n)

/-- The marks of long integers. -/
def longMarks : List Char := ['l', 'L']

/-- The marks of floating point numbers. -/
def floatMarks : List Char := ['f', 'F', 'd', 'D']

/-- Digits of some base behind one of the given beginnings. -/
def basedLength (beginnings : List String) (isDigit : Char → Bool) (cs : List Char) :
    List Nat :=
  beginnings.filterMap fun b =>
    if b.toList.isPrefixOf cs then
      (digits isDigit (cs.drop b.length)).map fun n => withSuffix longMarks cs (b.length + n)
    else none

/-- A decimal number with a point, an exponent or a mark. -/
def floatLengths (cs : List Char) : List Nat :=
  let tail (n : Nat) : Nat :=
    let n := n + exponent (cs.drop n)
    withSuffix floatMarks cs n
  let pointed : List Nat :=
    match digits Char.isDigit cs with
    | some n =>
      if (cs.drop n).head? == some '.' then
        [tail (n + 1 + (digits Char.isDigit (cs.drop (n + 1))).getD 0)]
      else []
    | none => []
  let leading : List Nat :=
    if cs.head? == some '.' then
      ((digits Char.isDigit (cs.drop 1)).map fun n => tail (n + 1)).toList
    else []
  let scaled : List Nat :=
    match plainDigits cs with
    | some n =>
      let e := exponent (cs.drop n)
      (if e == 0 then [] else [withSuffix floatMarks cs (n + e)])
        ++ (if oneOf floatMarks (cs.drop n) == 0 then [] else [n + 1])
    | none => []
  pointed ++ leading ++ scaled

/-- A number of base sixteen, perhaps with a point and an exponent. -/
def hexLengths (cs : List Char) : List Nat :=
  if ["0x".toList, "0X".toList].any (·.isPrefixOf cs) then
    let whole := (digits isHex (cs.drop 2)).getD 0
    let bodies : List Nat :=
      (if whole == 0 then []
        else [2 + whole + oneOf ['.'] (cs.drop (2 + whole)), 2 + whole])
      ++ (if (cs.drop (2 + whole)).head? == some '.' then
            ((digits isHex (cs.drop (3 + whole))).map fun n => 3 + whole + n).toList
          else [])
    bodies.map fun n =>
      match cs.drop n with
      | mark :: rest =>
        if ['e', 'E', 'p', 'P'].contains mark then
          let signLength := oneOf ['-', '+'] rest
          match plainDigits (rest.drop signLength) with
          | some k => withSuffix floatMarks cs (n + 1 + signLength + k)
          | none => n
        else n
      | [] => n
  else []

/-- The length of the longest number literal, or zero. -/
def numberLength (cs : List Char) : Nat :=
  let lengths := ((plainDigits cs).map (withSuffix longMarks cs)).toList
    ++ basedLength ["0x", "0X"] isHex cs
    ++ basedLength ["0o", "0O", "0"] isOctal cs
    ++ basedLength ["0b", "0B"] isBinary cs
    ++ floatLengths cs ++ hexLengths cs
  lengths.foldl max 0

/-! ### Characters and strings -/

/-- The number of characters up to and with the quote that ends a character literal. -/
def charEnd : List Char → Option Nat
  | '\x27' :: _ => some 1
  | '\\' :: _ :: cs => (charEnd cs).map (· + 2)
  | c :: cs => if c == '\n' || c == '\\' then none else (charEnd cs).map (· + 1)
  | [] => none

/-- The length of the character literal at the start of a text, or zero. There is at least one
character between the quotes. -/
def charLength : List Char → Nat
  | '\x27' :: cs =>
    match charEnd cs with
    | some n => if n ≤ 1 then 0 else n + 1
    | none => 0
  | _ => 0

/-- A character of a string literal that stands for itself. -/
def isPlain (c : Char) : Bool := c != '"' && c != '\\'

/-- The length of the characters that stand for themselves. -/
def fragmentLength (cs : List Char) : Nat :=
  (cs.takeWhile isPlain).length

/-- The length of an escape, which is a backslash with what it stands before, or zero. -/
def escapeLength : List Char → Nat
  | '\\' :: 'x' :: a :: b :: _ => if isHex a && isHex b then 4 else 0
  | '\\' :: 'u' :: '\x7b' :: cs =>
    let n := (cs.takeWhile isHex).length
    if n != 0 && (cs.drop n).head? == some '\x7d' then n + 4 else 0
  | '\\' :: 'u' :: cs => if cs.length ≥ 4 && (cs.take 4).all isHex then 6 else 0
  | '\\' :: c :: cs =>
    if c == 'x' then 0
    else if isOctal c then 2 + ((cs.take 2).takeWhile isOctal).length
    else 2
  | _ => 0

/-- The length of a backslash before a character that has no meaning behind it, or zero. -/
def blockEscapeLength : List Char → Nat
  | '\\' :: c :: _ => if "bfnrts\x27\"\\".toList.contains c then 0 else 2
  | _ => 0

/-- The length of plain characters and quotes behind a backslash. -/
def quotedLength : List Char → Nat
  | '\\' :: '"' :: cs => quotedLength cs + 2
  | c :: cs => if isPlain c then quotedLength cs + 1 else 0
  | [] => 0

/-- The length of a quote in a text block and what follows it, or zero. -/
def blockQuoteLength : List Char → Nat
  | '"' :: cs => quotedLength cs + 1
  | _ => 0

end SourceAtlas.Java
