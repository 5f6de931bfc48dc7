import SourceAtlas.Parsing.Run

/-!
# Pieces and what they cost

When a text is read in spite of its faults, only so much is kept of what was read: the kind and the
extent of each piece, what its faults cost, and where the first of them lies. A missing token and a
part that is given up cost something each. A part that is given up costs more the more pieces,
bytes and lines it has.
-/

namespace SourceAtlas.Parsing.Repair

/-- What a piece of a text is taken for. -/
inductive Label where
  | token (t : Nat)
  | rule (r : Nat)
  | comment
  /-- Characters that are no token. -/
  | junk
  /-- A part that is given up. -/
  | fault
  /-- Tokens that are passed over, before it is known which part is given up. -/
  | passedOver
  deriving DecidableEq, Repr

/-- A piece of a text. -/
structure Piece where
  label : Label
  /-- Where the piece before it stops. -/
  before : Nat
  start : Nat
  stop : Nat
  /-- The piece may stand anywhere and does not count as a part of a rule. -/
  isExtra : Bool := false
  /-- The piece counts by itself, and not by its parts. -/
  isVisible : Bool := true
  /-- The number of its parts. -/
  size : Nat := 0
  /-- The number of visible pieces among its parts, or among those of parts that are not. -/
  visibleParts : Nat := 0
  /-- The number of visible pieces inside. -/
  nodes : Nat := 0
  /-- What its parts cost as parts of something that is given up. -/
  burden : Nat := 0
  /-- What its faults cost. -/
  cost : Nat := 0
  /-- Where its first fault lies. -/
  fault : Option Nat := none
  deriving Repr

/-- The cost of going on after a fault. -/
def recoveryCost : Nat := 500

/-- The additional cost of a missing token. -/
def missingCost : Nat := 110

/-- The cost of a visible piece that is given up. -/
def pieceCost : Nat := 100

/-- The cost of a line that is given up. -/
def lineCost : Nat := 30

/-- The bytes and the lines before every place in a text. -/
structure Ruler where
  bytes : Array Nat
  lines : Array Nat

namespace Ruler

/-- The ruler of a text. -/
def ofText (text : List Char) : Ruler :=
  let (bytes, lines, _, _) := text.foldl
    (fun (bytes, lines, b, l) c =>
      let b := b + c.utf8Size
      let l := if c == '\n' then l + 1 else l
      (bytes.push b, lines.push l, b, l))
    (#[0], #[0], 0, 0)
  ⟨bytes, lines⟩

/-- The cost of giving up the text between two places: one for every byte, and more for every
line. -/
def cost (r : Ruler) (start stop : Nat) : Nat :=
  r.bytes.getD stop 0 - r.bytes.getD start 0
    + lineCost * (r.lines.getD stop 0 - r.lines.getD start 0)

end Ruler

namespace Piece

/-- What a piece costs as a part of something that is given up. -/
def share (p : Piece) : Nat :=
  (if p.label == .passedOver then 0 else p.cost)
    + (if p.isExtra || p.label == .junk then 0
      else if p.isVisible then pieceCost
      else pieceCost * p.visibleParts)

/-- The number of visible pieces of a piece with its inside. -/
def weight (p : Piece) : Nat :=
  p.nodes + (if p.isVisible then 1 else 0)

/-- How much a piece adds to the pieces on a trail. Tokens that are passed over count once
more. -/
def progress (p : Piece) : Nat :=
  p.weight + (if p.label == .passedOver then 1 else 0)

/-- The sum of a number over all parts. -/
def total (number : Piece → Nat) (parts : List Piece) : Nat :=
  parts.foldr (fun p n => number p + n) 0

/-- The piece of the given parts, of which there is at least one. -/
def ofParts (label : Label) (isVisible : Bool) (first : Piece) (rest : List Piece) : Piece :=
  let parts := first :: rest
  { label := label
    before := first.before
    start := first.start
    stop := ((rest.getLast?).map (·.stop)).getD first.stop
    isVisible := isVisible
    size := parts.length
    visibleParts := total (fun p => if p.isVisible then 1 else p.visibleParts) parts
    nodes := total weight parts
    cost := total (fun p => if p.label == .passedOver then 0 else p.cost) parts
    fault := parts.findSome? (·.fault) }

/-- The piece with the cost of being given up, where its parts have the given burden. -/
def givenUp (r : Ruler) (burden : Nat) (p : Piece) : Piece :=
  { p with burden := burden, cost := recoveryCost + r.cost p.start p.stop + burden }

/-- The parts as one part that is given up. -/
def faultOf (r : Ruler) (first : Piece) (rest : List Piece) : Piece :=
  let p := ofParts .fault true first rest
  { p.givenUp r (total share (first :: rest)) with isExtra := true, fault := some p.start }

/-- A fault that goes on with further parts. -/
def extendFault (r : Ruler) (fault : Piece) : List Piece → Piece
  | [] => fault
  | first :: rest =>
    let more := ofParts .fault true first rest
    let p := { fault with
      stop := more.stop
      size := fault.size + more.size
      visibleParts := fault.visibleParts + more.visibleParts
      nodes := fault.nodes + more.nodes }
    p.givenUp r (fault.burden + total share (first :: rest))

/-- The parts as tokens that are passed over. -/
def passedOver (r : Ruler) (first : Piece) (rest : List Piece) : Piece :=
  (ofParts .passedOver false first rest).givenUp r (total share (first :: rest))

/-- A token that is missing at a place. One that is not visible lies nowhere. -/
def missing (token : Nat) (isVisible : Bool) (place : Nat) : Piece where
  label := .token token
  before := place
  start := place
  stop := place
  isVisible := isVisible
  cost := recoveryCost + missingCost
  fault := if isVisible then some place else none

/-- Both pieces are taken for the same and are alike: both have faults, or neither, and then they
are equally long and have equally many parts. -/
def resembles (a b : Piece) : Bool :=
  a.label == b.label
    && ((0 < a.cost && 0 < b.cost)
      || (a.start - a.before == b.start - b.before && a.stop - a.start == b.stop - b.start
        && a.size == b.size && a.isExtra == b.isExtra))

/-- The better of two pieces for the same text: the one with fewer faults. Of pieces with equal
faults the later one is taken, of pieces without faults the earlier one. -/
def better (a b : Piece) : Piece :=
  if b.cost < a.cost || (b.cost == a.cost && 0 < a.cost) then b else a

end Piece

end SourceAtlas.Parsing.Repair
