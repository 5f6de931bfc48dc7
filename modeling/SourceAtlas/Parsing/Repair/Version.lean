import SourceAtlas.Parsing.Repair.Trail

/-!
# Readings with faults

A reading is a trail and a place. A reading that cannot go on waits with its token until it is
known whether another one can. Readings are compared by what their faults cost and by how far they
have come since, so that the hopeless ones are dropped.
-/

namespace SourceAtlas.Parsing.Repair

/-- A token that a reading has before it. -/
structure Look where
  piece : Piece
  /-- The token, or the number of tokens if it is none. -/
  token : Nat
  after : Place

/-- Whether a reading goes on. -/
inductive Status where
  | active
  /-- The reading cannot go on with the token. -/
  | waiting (look : Look)
  | halted

/-- A reading. -/
structure Version where
  trail : Trail
  place : Place
  /-- The number of pieces when it last broke off. -/
  nodesAtFault : Nat := 0
  status : Status := .active
  /-- The states to which it may go back. -/
  landmarks : List Trail.Landmark := []

namespace Version

/-- The reading is active. -/
def isActive (v : Version) : Bool :=
  match v.status with
  | .active => true
  | _ => false

/-- The reading is halted. -/
def isHalted (v : Version) : Bool :=
  match v.status with
  | .halted => true
  | _ => false

/-- The reading waits. -/
def isWaiting (v : Version) : Bool :=
  match v.status with
  | .waiting _ => true
  | _ => false

/-- The reading has broken off and nothing was passed over yet. -/
def justBroken (v : Version) : Bool :=
  v.trail.state.isNone && v.trail.links.head?.any (·.1.isNone)

/-- What the faults of the reading cost. -/
def cost (v : Version) : Nat :=
  v.trail.cost + (if v.isWaiting || v.justBroken then recoveryCost else 0)

/-- The number of pieces since the reading last broke off. -/
def progress (v : Version) : Nat :=
  v.trail.nodes - v.nodesAtFault

/-- The reading with no more pieces at its last fault than it has now, after it went back. -/
def settled (v : Version) : Version :=
  { v with nodesAtFault := min v.nodesAtFault v.trail.nodes }

end Version

/-- How a reading stands. -/
structure Standing where
  cost : Nat
  progress : Nat
  isBroken : Bool

/-- How a reading stands. -/
def Version.standing (v : Version) : Standing where
  cost := v.cost + (if v.isWaiting then pieceCost else 0)
  progress := v.progress
  isBroken := v.isWaiting || v.trail.state.isNone

/-- What follows from comparing two readings. -/
inductive Comparison where
  /-- The second one can be dropped. -/
  | onlyFirst
  /-- The first one is better. -/
  | first
  | neither
  | second
  | onlySecond
  deriving DecidableEq

/-- The difference in cost, times the pieces since the last fault, that settles a comparison. -/
def decisiveCost : Nat := 18 * pieceCost

/-- Compares how two readings stand. -/
def Standing.compare (a b : Standing) : Comparison :=
  match a.isBroken, b.isBroken with
  | false, true => if a.cost < b.cost then .onlyFirst else .first
  | true, false => if b.cost < a.cost then .onlySecond else .second
  | _, _ =>
    if a.cost < b.cost then
      if decisiveCost < (b.cost - a.cost) * (1 + a.progress) then .onlyFirst else .first
    else if b.cost < a.cost then
      if decisiveCost < (a.cost - b.cost) * (1 + b.progress) then .onlySecond else .second
    else .neither

/-- All readings of a text. -/
structure Session where
  automaton : Automaton
  ruler : Ruler
  /-- The next free mark for trails. -/
  free : Nat := 1
  versions : Array Version := #[]
  /-- The best whole reading so far. -/
  accepted : Option Piece := none
  /-- The number of whole readings. -/
  accepts : Nat := 0
  /-- More than the length of any trail. -/
  depth : Nat

/-- A computation on readings. -/
abbrev Attempt := StateM Session

/-- The most readings that are kept. -/
def versionLimit : Nat := 6

namespace Attempt

/-- The reading with a number. -/
def version? (v : Nat) : Attempt (Option Version) := do
  return (← get).versions[v]?

/-- The number of readings. -/
def count : Attempt Nat := do
  return (← get).versions.size

/-- Changes a reading. -/
def update (v : Nat) (f : Version → Version) : Attempt Unit :=
  modify fun s => { s with versions := s.versions.modify v f }

/-- Removes a reading. -/
def remove (v : Nat) : Attempt Unit :=
  modify fun s => { s with versions := s.versions.eraseIdxIfInBounds v }

/-- Adds a reading. -/
def add (v : Version) : Attempt Unit :=
  modify fun s => { s with versions := s.versions.push v }

/-- A free mark. -/
def freshMark : Attempt Nat := do
  let s ← get
  set { s with free := s.free + 1 }
  return s.free

/-- The reading with one more piece on its trail, or broken off. -/
def pushed (v : Version) (piece : Option Piece) (state : Option Nat) : Attempt Version := do
  let trail := Trail.push (← freshMark) state piece v.trail
  return { v with
    trail := trail
    nodesAtFault := if piece.isNone then trail.nodes else v.nodesAtFault }

/-- Puts a piece on the trail of a reading, or breaks it off. -/
def push (v : Nat) (piece : Option Piece) (state : Option Nat) : Attempt Unit := do
  if let some version ← version? v then
    let version ← pushed version piece state
    update v fun _ => version

/-- Puts a reading in the place of another one. -/
def renumber (source target : Nat) : Attempt Unit := do
  if source != target then
    if let some version ← version? source then
      update target fun old =>
        { version with
          landmarks := if version.landmarks.isEmpty then old.landmarks else version.landmarks }
      remove source

/-- The readings with these numbers are active and agree. -/
def agree (a b : Nat) : Attempt Bool := do
  match ← version? a, ← version? b with
  | some u, some v => return u.isActive && v.isActive && u.trail.agree v.trail
  | _, _ => return false

/-- Makes one reading of two that agree. -/
def merge (a b : Nat) : Attempt Bool := do
  if ← agree a b then
    match ← version? a, ← version? b with
    | some u, some v =>
      let s ← get
      let (trail, free) := Trail.merge s.depth s.free u.trail v.trail
      set { s with free := free }
      update a fun u => { u with
        trail := trail
        nodesAtFault := if trail.state.isNone then trail.nodes else u.nodesAtFault }
      remove b
      return true
    | _, _ => return false
  else return false

/-- Merges a reading into the first of the given ones with which it agrees. -/
def mergeInto (candidates : List Nat) (v : Nat) : Attempt Bool :=
  candidates.anyM fun j => merge j v

/-- The state that a symbol leads to. -/
def next {τ ν : Type} (g : Grammar τ ν) (state : Option Nat) (symbol : Symbol) :
    Attempt (Option Nat) :=
  match state with
  | none => return none
  | some n => do
    let s ← get
    let (next, automaton) := s.automaton.move g n symbol
    set { s with automaton := automaton }
    return next

/-- What is done on a token in a state. In the first state the text may also end. -/
def choices {τ ν : Type} (g : Grammar τ ν) (state : Option Nat) (token : Nat) :
    Attempt State.Choices := do
  if state == some 0 && token == 0 then return { accepts := true }
  else
    match state.bind (← get).automaton.state? with
    | some s => return s.choices g token
    | none => return {}

end Attempt

end SourceAtlas.Parsing.Repair
