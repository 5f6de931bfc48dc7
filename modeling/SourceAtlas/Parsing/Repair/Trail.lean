import SourceAtlas.Parsing.Repair.Piece

/-!
# Trails

A trail holds the states that were passed and the pieces between them, as a stack does, with what
the faults on it cost and how many pieces it has. Where reading broke off there is no state, and no
piece leads there.
-/

namespace SourceAtlas.Parsing.Repair

/-- A trail: the state on top, if there is one, and what lies below it. -/
inductive Trail where
  | node (mark : Nat) (state : Option Nat) (stop cost nodes : Nat)
    (links : List (Option Piece × Trail))

namespace Trail

/-- The mark on top. -/
def mark : Trail → Nat
  | node mark _ _ _ _ _ => mark

/-- The state on top. -/
def state : Trail → Option Nat
  | node _ state _ _ _ _ => state

/-- The place that the trail has reached. -/
def stop : Trail → Nat
  | node _ _ stop _ _ _ => stop

/-- What the faults on the trail cost. -/
def cost : Trail → Nat
  | node _ _ _ cost _ _ => cost

/-- The number of pieces on the trail. -/
def nodes : Trail → Nat
  | node _ _ _ _ nodes _ => nodes

/-- What lies below the top. -/
def links : Trail → List (Option Piece × Trail)
  | node _ _ _ _ _ links => links

/-- The number of pieces on a trail with one more piece. -/
def nodesWith (piece : Option Piece) (below : Trail) : Nat :=
  below.nodes + (piece.map Piece.progress).getD 0

/-- The trail with one more piece, or broken off. -/
def push (mark : Nat) (state : Option Nat) (piece : Option Piece) (below : Trail) : Trail :=
  .node mark state ((piece.map (·.stop)).getD below.stop)
    (below.cost + (piece.map (·.cost)).getD 0) (nodesWith piece below) [(piece, below)]

/-- The trails have the same state on top, the same place and the same cost. -/
def agree (a b : Trail) : Bool :=
  a.state == b.state && a.stop == b.stop && a.cost == b.cost

/-- The pieces on two links are alike. -/
def alike : Option Piece → Option Piece → Bool
  | some p, some q => p.resembles q
  | none, none => true
  | _, _ => false

/-- The most links below a trail. -/
def linkLimit : Nat := 8

/-- Adds a link below a trail, and gives the next free mark. -/
def addLink : (fuel : Nat) → (free : Nat) → Trail → Option Piece × Trail → Trail × Nat
  | 0, free, t, _ => (t, free)
  | fuel + 1, free, t, (piece, below) =>
    match t.links.findIdx? fun (p, b) =>
        alike p piece && (b.mark == below.mark || b.agree below) with
    | some n =>
      match t.links[n]? with
      | some (p, b) =>
        if b.mark == below.mark then (t, free)
        else
          let (b, free) := below.links.foldl
            (fun (b, free) link => addLink fuel free b link) (b, free)
          (.node free t.state t.stop t.cost t.nodes (t.links.set n (p, b)), free + 1)
      | none => (t, free)
    | none =>
      if linkLimit ≤ t.links.length then (t, free)
      else (.node free t.state t.stop t.cost (max t.nodes (nodesWith piece below))
        (t.links ++ [(piece, below)]), free + 1)

/-- Two trails that agree as one. -/
def merge (fuel free : Nat) (a b : Trail) : Trail × Nat :=
  b.links.foldl (fun (a, free) link => addLink fuel free a link) (a, free)

/-- A piece counts when pieces are taken from a trail. -/
def counts : Option Piece → Bool
  | some p => !p.isExtra
  | none => true

/-- The most ways that are followed when pieces are taken from a trail. -/
def wayLimit : Nat := 64

/-- A way to take pieces from a trail: the pieces that are taken, and what is left. -/
structure Way where
  trail : Trail
  taken : List Piece := []
  /-- The number of pieces taken that count. -/
  count : Nat := 0

/-- The ways to take one more piece. -/
def Way.longer (w : Way) : List Way :=
  w.trail.links.map fun (piece, below) =>
    { trail := below
      taken := piece.toList ++ w.taken
      count := if counts piece then w.count + 1 else w.count }

/-- Follows all ways at once, one piece at a time, and gathers those that are done. Where a way
forks it goes on over the first link, and the ways over the other links come last. -/
def follow (isDone : Way → Bool) : (fuel : Nat) → List Way → List Way
  | 0, _ => []
  | _ + 1, [] => []
  | fuel + 1, w :: ws =>
    let ways := w :: ws
    let longer := (ways.filter fun w => !isDone w).map Way.longer
    let next := longer.filterMap List.head? ++ longer.flatMap (List.drop 1)
    ways.filter isDone ++ follow isDone fuel (next.take wayLimit)

/-- The ways to take `n` pieces that count from a trail. -/
def pop (fuel n : Nat) (t : Trail) : List Way :=
  follow (fun w => w.count == n) fuel [{ trail := t }]

/-- The ways to take all pieces from a trail. -/
def popAll (fuel : Nat) (t : Trail) : List Way :=
  follow (fun w => w.trail.links.isEmpty) fuel [{ trail := t }]

/-- A state on a trail, with its place and the number of pieces above it. -/
structure Landmark where
  state : Nat
  place : Nat
  depth : Nat
  deriving DecidableEq

/-- How deep landmarks may lie. -/
def landmarkDepth : Nat := 16

/-- Notes the states on top of the given ways, and goes on below. -/
def collect : (fuel : Nat) → List Way → List Landmark → List Landmark
  | 0, _, found => found.reverse
  | _ + 1, [], found => found.reverse
  | fuel + 1, w :: ws, found =>
    let ways := (w :: ws).filter (·.count ≤ landmarkDepth)
    let found := ways.foldl
      (fun found w =>
        match w.trail.state with
        | some state =>
          if found.any fun l => l.depth == w.count && l.state == state then found
          else ⟨state, w.trail.stop, w.count⟩ :: found
        | none => found)
      found
    let longer := ways.map Way.longer
    let next := longer.filterMap List.head? ++ longer.flatMap (List.drop 1)
    collect fuel (next.take wayLimit) found

/-- The states near the top of a trail. -/
def landmarks (fuel : Nat) (t : Trail) : List Landmark :=
  collect fuel [{ trail := t }] []

end Trail

end SourceAtlas.Parsing.Repair
