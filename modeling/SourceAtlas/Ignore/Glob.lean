import SourceAtlas.Text.Utf8

/-!
# Globs

A glob is a pattern for the bytes of a relative path. A question mark stands for one byte, a
star for any number of bytes, but neither for a slash. Two stars between slashes stand for any
number of directories. Square brackets hold a choice of bytes, and braces a choice of globs.
A backslash takes the special meaning from the sign behind it.
-/

namespace SourceAtlas.Ignore

/-- A piece of a glob. -/
inductive Piece where
  | byte (b : UInt8)
  /-- One byte other than a slash. -/
  | one
  /-- Any number of bytes other than slashes. -/
  | some
  /-- Nothing, or any directories in front with the slash behind them. -/
  | leadingDirectories
  /-- A slash and anything behind it. -/
  | everythingBelow
  /-- A slash, or two slashes with any directories between them. -/
  | directoriesBetween
  /-- One byte of some ranges, or one of none of them. -/
  | range (negated : Bool) (ranges : List (UInt8 × UInt8))
  /-- One of several rows of pieces. -/
  | choice (branches : List (List Piece))

/-! ### Reading -/

/-- The bytes of a character. -/
def bytesOf (c : Char) : List UInt8 :=
  Text.encode (String.singleton c)

/-- The ranges of bytes that a range of characters comes to: the range between the last byte
of the first character and the first byte of the last one, and the other bytes by themselves. A
range whose ends are in the wrong order is refused. -/
def byteRanges? (first last : Char) : Option (List (UInt8 × UInt8)) :=
  if first == last then some ((bytesOf first).map fun b => (b, b))
  else
    let low := (bytesOf first).getLast?.getD 0
    let high := (bytesOf last).head?.getD 0
    if high < low then none
    else
      some (((bytesOf first).dropLast.map fun b => (b, b)) ++ [(low, high)]
        ++ ((bytesOf last).drop 1).map fun b => (b, b))

/-- What was read of the characters in square brackets. -/
structure RangeState where
  /-- The ranges so far, last first. -/
  ranges : List (Char × Char) := []
  /-- A hyphen was read that may join the last range to the next character. -/
  joining : Bool := false

/-- How the reading of square brackets ends. -/
inductive RangeEnd where
  /-- With the closing bracket, behind which `rest` follows. -/
  | closed (ranges : List (Char × Char)) (rest : List Char)
  /-- Without a closing bracket. -/
  | unclosed
  /-- With a range whose ends are in the wrong order. -/
  | refused

/-- The characters in square brackets. -/
def readRanges (first : Bool) (state : RangeState) : List Char → RangeEnd
  | [] => .unclosed
  | c :: cs =>
    if c == ']' && !first then
      .closed ((if state.joining then ('-', '-') :: state.ranges else state.ranges).reverse) cs
    else if c == '-' && !first && !state.joining then
      readRanges false { state with joining := true } cs
    else if state.joining then
      match state.ranges with
      | (low, _) :: ranges =>
        if c < low then .refused else readRanges false { ranges := (low, c) :: ranges } cs
      | [] => .refused
    else
      readRanges false { state with ranges := (c, c) :: state.ranges } cs

/-- What was read of a glob: the finished pieces of the row at hand, last first, with the
finished rows beside it, for the glob itself and every open brace, the innermost first. -/
structure GlobState where
  /-- The pieces of the row at hand, last first. -/
  row : List Piece := []
  /-- The rows before it in the same braces, last first, and the row in front of the braces,
  for every open brace. -/
  outer : List (List (List Piece) × List Piece) := []
  /-- The character before. -/
  before : Option Char := none
  /-- A square bracket was found that is not closed; all further ones are ordinary signs. -/
  unclosed : Bool := false

namespace GlobState

/-- The state behind one more character, with more pieces, last first. -/
def push (s : GlobState) (c : Char) (pieces : List Piece) : GlobState :=
  { s with row := pieces ++ s.row, before := some c }

/-- The state behind an ordinary character. -/
def plain (s : GlobState) (c : Char) : GlobState :=
  s.push c ((bytesOf c).reverse.map .byte)

/-- The last piece becomes a mark for any directories. -/
def join (s : GlobState) (suffix : Bool) (c : Char) : GlobState :=
  let piece : Piece := match s.row with
    | .leadingDirectories :: _ => .leadingDirectories
    | .everythingBelow :: _ => .everythingBelow
    | _ => if suffix then .everythingBelow else .directoriesBetween
  { s with row := piece :: s.row.drop 1, before := some c }

end GlobState

/-- The state behind two stars, and the text behind them and perhaps a slash. -/
def readStars (s : GlobState) (cs : List Char) : GlobState × List Char :=
  let two : GlobState × List Char := (s.push '*' [.some, .some], cs)
  if s.row.isEmpty then
    match cs with
    | [] => (s.push '*' [.leadingDirectories], [])
    | '/' :: rest => (s.push '/' [.leadingDirectories], rest)
    | _ => two
  else if s.before != some '/' then two
  else
    match cs with
    | [] => (s.join true '*', [])
    | '/' :: rest => (s.join false '/', rest)
    | c :: _ =>
      if (c == ',' || c == '\x7d') && !s.outer.isEmpty then (s.join true '*', cs) else two

/-- The pieces of a glob, last first. -/
def readPieces : (fuel : Nat) → GlobState → List Char → Option (List Piece)
  | _, s, [] => if s.outer.isEmpty then some s.row else none
  | 0, _, _ => none
  | fuel + 1, s, c :: cs =>
    match c with
    | '?' => readPieces fuel (s.push c [.one]) cs
    | '*' =>
      match cs with
      | '*' :: rest =>
        let (s, rest) := readStars s rest
        readPieces fuel s rest
      | _ => readPieces fuel (s.push c [.some]) cs
    | '[' =>
      if s.unclosed then readPieces fuel (s.plain c) cs
      else
        let negated := cs.head? == some '!' || cs.head? == some '^'
        match readRanges true {} (if negated then cs.drop 1 else cs) with
        | .closed ranges rest => do
          let bytes ← ranges.mapM fun (low, high) => byteRanges? low high
          readPieces fuel (s.push ']' [.range negated bytes.flatten]) rest
        | .unclosed => readPieces fuel { s.plain c with unclosed := true } cs
        | .refused => none
    | '\x7b' =>
      readPieces fuel { s with row := [], outer := ([], s.row) :: s.outer, before := some c } cs
    | '\x7d' =>
      match s.outer with
      | (rows, row) :: outer =>
        let choice := Piece.choice ((s.row :: rows).reverse.map List.reverse)
        readPieces fuel { s with row := choice :: row, outer := outer, before := some c } cs
      | [] => none
    | ',' =>
      match s.outer with
      | (rows, row) :: outer =>
        readPieces fuel
          { s with row := [], outer := (s.row :: rows, row) :: outer, before := some c } cs
      | [] => readPieces fuel (s.plain c) cs
    | '\\' =>
      match cs with
      | d :: rest => readPieces fuel (s.plain d) rest
      | [] => none
    | _ => readPieces fuel (s.plain c) cs

/-- A glob. -/
structure Glob where
  pieces : List Piece

/-- The glob that a text stands for, unless its braces or ranges are malformed. -/
def Glob.ofText? (text : List Char) : Option Glob :=
  (readPieces (text.length + 1) {} text).map fun row => ⟨row.reverse⟩

/-! ### Matching -/

/-- The slash. -/
def slash : UInt8 := 0x2F

/-- Some end of the bytes, where no slash is passed over, fits what follows. -/
def someThen (next : List UInt8 → Bool) : List UInt8 → Bool
  | [] => next []
  | b :: bs => next (b :: bs) || (b != slash && someThen next bs)

/-- Some end of the bytes fits what follows. -/
def anyThen (next : List UInt8 → Bool) : List UInt8 → Bool
  | [] => next []
  | b :: bs => next (b :: bs) || anyThen next bs

/-- Behind some slash what follows fits. -/
def slashThen (next : List UInt8 → Bool) : List UInt8 → Bool
  | [] => false
  | b :: bs => (b == slash && next bs) || slashThen next bs

mutual

/-- The bytes start with what the piece stands for, and the rest fits what follows. -/
def Piece.fits (next : List UInt8 → Bool) : Piece → List UInt8 → Bool
  | .byte b, bs => bs.head? == Option.some b && next (bs.drop 1)
  | .one, bs => bs.head?.any (· != slash) && next (bs.drop 1)
  | .some, bs => someThen next bs
  | .leadingDirectories, bs => next bs || slashThen next bs
  | .everythingBelow, bs => bs.head? == Option.some slash && anyThen next (bs.drop 1)
  | .directoriesBetween, bs =>
    bs.head? == Option.some slash && (next (bs.drop 1) || slashThen next (bs.drop 1))
  | .range negated ranges, bs =>
    bs.head?.any (fun b => ranges.any (fun r => r.1 ≤ b && b ≤ r.2) != negated)
      && next (bs.drop 1)
  | .choice branches, bs =>
    if isVoid branches then next bs else anyFits next branches bs

/-- The bytes start with what the pieces stand for, and the rest fits what follows. -/
def allFit (next : List UInt8 → Bool) : List Piece → List UInt8 → Bool
  | [], bs => next bs
  | p :: ps, bs => p.fits (allFit next ps) bs

/-- The bytes start with what some row that is not void stands for, and the rest fits what
follows. -/
def anyFits (next : List UInt8 → Bool) : List (List Piece) → List UInt8 → Bool
  | [], _ => false
  | row :: rows, bs => (!rowIsVoid row && allFit next row bs) || anyFits next rows bs

/-- No row of the choice holds anything. -/
def isVoid : List (List Piece) → Bool
  | [] => true
  | row :: rows => rowIsVoid row && isVoid rows

/-- The row holds nothing but choices of void rows. -/
def rowIsVoid : List Piece → Bool
  | [] => true
  | p :: ps => p.isVoidChoice && rowIsVoid ps

/-- The piece is a choice of void rows. -/
def Piece.isVoidChoice : Piece → Bool
  | .choice branches => isVoid branches
  | _ => false

end

/-- The glob stands for the path. A glob of two stars only stands for every path. -/
def Glob.fits (g : Glob) (path : List UInt8) : Bool :=
  match g.pieces with
  | [.leadingDirectories] => true
  | pieces => allFit List.isEmpty pieces path

end SourceAtlas.Ignore
