import SourceAtlas.Parsing.Merged
import SourceAtlas.Parsing.Repair.Version

/-!
# The place of the first fault

A text that cannot be read is read in spite of its faults. Where no reading goes on, three ways
are tried: to suppose that one token is missing, to go back to a state on the trail that knows the
token and give up what was read since, and to pass over the token. The readings that arise are
followed together, and the one whose faults cost least tells where the first fault lies.
-/

namespace SourceAtlas.Parsing.Repair

/-- How the language is read in spite of faults. -/
structure Guide where
  language : Language
  /-- The next token where any may stand. -/
  scanAny : Place → Option Lexeme
  /-- The next comment, if nothing but blanks stands before it. -/
  comment? : Place → Option Lexeme
  /-- The place behind blanks. -/
  skipBlanks : Place → Place
  /-- The text is taken as it stands where these tokens are wanted, so there are no comments. -/
  isVerbatim : TokenSet → Bool
  /-- The tokens other than the end of the text, in the order in which they are tried. -/
  order : List Nat
  /-- The tokens and rules that do not count by themselves. -/
  hiddenTokens : TokenSet
  hiddenRules : Nat → Bool
  /-- The merged states of the language. -/
  merged : Thunk Automaton

namespace Guide

/-! ### Looking ahead -/

/-- The end of characters that are no token, of which there is at least one. -/
def junkEnd (g : Guide) : (fuel : Nat) → Place → Place
  | 0, p => p
  | fuel + 1, p =>
    if p.rest.isEmpty then p
    else
      let stop := p.skip 1
      if (g.comment? stop).isSome || (g.scanAny stop).isSome then stop
      else
        let next := g.skipBlanks stop
        if next.offset != stop.offset && (g.scanAny next).isSome then next
        else g.junkEnd fuel next

/-- A token before a place. -/
def tokenLook (g : Guide) (p : Place) (x : Lexeme) : Look where
  piece := { label := .token x.token
             before := p.offset
             start := x.start
             stop := x.after.offset
             isExtra := x.token == 0
             isVisible := x.token != 0 && !g.hiddenTokens.has x.token }
  token := x.token
  after := x.after

/-- What stands before a place where any token may stand. -/
def lookAny (g : Guide) (p : Place) : Look :=
  let none := g.language.grammar.tokens.size
  match g.comment? p with
  | some x =>
    { piece := { label := .comment, before := p.offset, start := x.start, stop := x.after.offset
                 isExtra := true }
      token := none
      after := x.after }
  | .none =>
    match g.scanAny p with
    | some x => g.tokenLook p x
    | .none =>
      let start := g.skipBlanks p
      let stop := g.junkEnd (start.rest.length + 1) start
      { piece := { label := .junk, before := p.offset, start := start.offset, stop := stop.offset }
        token := none
        after := stop }

/-- What a reading has before it. A word that nothing is done on is a plain word, unless the
reading is broken off. -/
def look (g : Guide) (v : Version) : Attempt Look := do
  match v.trail.state.bind (← get).automaton.state? with
  | none => return g.lookAny v.place
  | some state =>
    let comment := g.comment? v.place
    if !g.isVerbatim state.possible && comment.isSome then return g.lookAny v.place
    else
      match g.language.scan state.possible v.place with
      | some x =>
        if comment.any fun c => c.after.offset ≤ x.start then return g.lookAny v.place
        else return g.tokenLook v.place x
      | none =>
        let x := g.lookAny v.place
        if g.language.words.has x.token then
          return { x with
            piece := { x.piece with label := .token g.language.plainWord }
            token := g.language.plainWord }
        else return x

/-! ### Ending productions -/

/-- The pieces without the extra ones at the end, and these. -/
def splitExtras (pieces : List Piece) : List Piece × List Piece :=
  let extras := pieces.reverse.takeWhile (·.isExtra)
  (pieces.take (pieces.length - extras.length), extras.reverse)

/-- The ways with the same trail below, together. -/
def groupWays : List Trail.Way → List (Trail × List (List Piece))
  | [] => []
  | w :: ways =>
    let groups := groupWays ways
    let same := (groups.filter fun (t, _) => t.mark == w.trail.mark).flatMap Prod.snd
    (w.trail, w.taken :: same) :: groups.filter fun (t, _) => t.mark != w.trail.mark

/-- The piece of a rule over one of several lists of pieces, with the extra ones behind it. -/
def rulePiece (g : Guide) (rule : Nat) (lists : List (List Piece)) :
    Option (Piece × List Piece) :=
  lists.foldl
    (fun best pieces =>
      match splitExtras pieces with
      | ([], _) => best
      | (first :: rest, extras) =>
        let piece := Piece.ofParts (.rule rule) (!g.hiddenRules rule) first rest
        match best with
        | none => some (piece, extras)
        | some (old, oldExtras) =>
          if piece.cost < old.cost || (piece.cost == old.cost && 0 < old.cost) then
            some (piece, extras)
          else some (old, oldExtras))
    none

/-- Ends a production of a rule with `size` symbols on the trail of a reading. The readings that
arise are added; the number of the first is returned, if there is one. -/
def finish (g : Guide) (v rule size : Nat) : Attempt (Option Nat) := do
  let first ← Attempt.count
  let some version ← Attempt.version? v | return none
  let s ← get
  for (trail, lists) in groupWays (Trail.pop s.depth size version.trail) do
    let halted := (← get).versions.toList.countP Version.isHalted
    if (← Attempt.count) ≤ versionLimit + 4 + halted then
      if let some (piece, extras) := g.rulePiece rule lists then
        if let some next ← Attempt.next g.language.grammar trail.state (.rule rule) then
          let mut new : Version :=
            { trail, place := version.place, nodesAtFault := version.nodesAtFault }
          for p in piece :: extras do
            new ← Attempt.pushed new (some p) (some next)
          let n ← Attempt.count
          Attempt.add new
          let _ ← Attempt.mergeInto ((List.range n).filter (· != v)) n
  return if first < (← Attempt.count) then some first else none

/-- The rules and sizes of productions that can be ended before a token, or before any token if it
is the end of the text, and whether the token can be read. -/
def endings (g : Guide) (state : Option Nat) (token : Nat) :
    Attempt (List (Nat × Nat) × Bool) := do
  match state.bind (← get).automaton.state? with
  | none => return ([], true)
  | some s =>
    let tokens := if token == 0 then g.order else [token]
    let choices := tokens.map (s.choices g.language.grammar)
    let shapes := (choices.flatMap (·.ended)).filterMap fun p =>
      g.language.grammar.productions[p]?.map fun p => (p.rule, p.symbols.size)
    return (Grammar.distinct shapes, choices.any (·.reads))

/-- Ends all productions that can be ended before a token, on the trail of a reading and of those
that arise from it. Tells whether the token can be read then. -/
def finishAll (g : Guide) (start token initial : Nat) :
    (fuel : Nat) → (v round : Nat) → (canRead : Bool) → Attempt Bool
  | 0, _, _, canRead => return canRead
  | fuel + 1, v, round, canRead => do
    let count ← Attempt.count
    let some version ← Attempt.version? v | return canRead
    if ← Attempt.mergeInto ((List.range v).drop initial) v then
      g.finishAll start token initial fuel v (round + 1) canRead
    else
      let (shapes, reads) ← g.endings version.trail.state token
      let mut last : Option Nat := none
      for (rule, size) in shapes do
        last ← g.finish v rule size
      let next := if v == start then count else v + 1
      if reads then g.finishAll start token initial fuel next (round + 1) true
      else
        match last with
        | some n =>
          if round < versionLimit then
            Attempt.renumber n v
            g.finishAll start token initial fuel v (round + 1) canRead
          else
            if token != 0 then Attempt.remove v
            g.finishAll start token initial fuel next (round + 1) canRead
        | none =>
          if token != 0 then Attempt.remove v
          g.finishAll start token initial fuel next (round + 1) canRead

/-- How many productions are ended at most in search of a repair. -/
def finishLimit : Nat := 4096

/-- Ends all productions that can be ended before a token, from one reading on. -/
def finishFrom (g : Guide) (v token : Nat) : Attempt Bool := do
  g.finishAll v token (← Attempt.count) finishLimit v 0 false

/-! ### Whole readings -/

/-- Takes a reading for a whole one. All its pieces up to the end of the text are one piece, which
is given up if the reading is broken off. -/
def accept (v : Nat) (look : Look) (broken : Bool) : Attempt Unit := do
  if let some version ← Attempt.version? v then
    let s ← get
    for way in Trail.popAll s.depth version.trail do
      match way.taken with
      | [] => pure ()
      | first :: rest =>
        let rest := rest ++ [look.piece]
        let whole := if broken then Piece.faultOf s.ruler first rest
          else Piece.ofParts .comment true first rest
        modify fun s => { s with
          accepts := s.accepts + 1
          accepted := match s.accepted with
            | some best => some (best.better whole)
            | none => some whole }
    Attempt.update v fun version => { version with status := .halted }

/-! ### Repairs -/

/-- Supposes that a token is missing before `look`, in the state of a reading. The reading with
the missing token is added if it can go on. -/
def supposeMissing (g : Guide) (v : Nat) (look : Look) : Attempt Bool := do
  let some version ← Attempt.version? v | return false
  g.order.anyM fun token => do
    let some next ← Attempt.next g.language.grammar version.trail.state (.token token)
      | return false
    if some next == version.trail.state then return false
    if (← Attempt.choices g.language.grammar (some next) look.token).ended.isEmpty then
      return false
    let n ← Attempt.count
    let piece := Piece.missing token (!g.hiddenTokens.has token) version.place.offset
    Attempt.add (← Attempt.pushed { version with landmarks := [] } (some piece) (some next))
    g.finishFrom n look.token

/-- A reading that is at least as far is better than one at this place with the given cost. -/
def betterExists (v cost : Nat) : Attempt Bool := do
  let s ← get
  let some version := s.versions[v]? | return false
  if s.accepted.any (·.cost ≤ cost) then return true
  let standing : Standing := { cost, progress := version.progress, isBroken := false }
  (List.range s.versions.size).anyM fun n => do
    let some other ← Attempt.version? n | return false
    if n == v || !other.isActive || other.place.offset < version.place.offset then return false
    else
      Attempt.update n Version.settled
      match standing.compare other.settled.standing with
      | .onlySecond => return true
      | .second => return version.isActive && other.trail.agree version.trail
      | _ => return false

/-- Goes back to a landmark: what was read since is given up. -/
def goBack (v depth state : Nat) : Attempt Bool := do
  let some version ← Attempt.version? v | return false
  let s ← get
  let ways := (groupWays (Trail.pop s.depth depth version.trail)).filter fun (t, _) =>
    t.state == some state
  for (trail, lists) in ways do
    let pieces := lists.head?.getD []
    let (pieces, extras) := splitExtras pieces
    let faultBelow := trail.links.find? fun (p, _) => p.any (·.label == .fault)
    let mut new : Version :=
      { trail, place := version.place, nodesAtFault := version.nodesAtFault }
    match faultBelow, pieces with
    | some (some fault, below), pieces =>
      new ← Attempt.pushed { new with trail := below } (some (fault.extendFault s.ruler pieces))
        (some state)
    | _, first :: rest =>
      new ← Attempt.pushed new (some (Piece.faultOf s.ruler first rest)) (some state)
    | _, [] => pure ()
    for p in extras do
      new ← Attempt.pushed new (some p) (some state)
    Attempt.add new
  return !ways.isEmpty

/-- Tries the landmarks of a broken reading in their order: the first at which something is done
on the token is gone back to, unless a better reading exists. -/
def tryLandmarks (g : Guide) (v : Nat) (look : Look) (count : Nat) :
    List Trail.Landmark → Attempt Bool
  | [] => return false
  | mark :: marks => do
    let some version ← Attempt.version? v | return false
    let s ← get
    let place := version.place.offset
    let known := (s.versions.toList.take count).any fun u =>
      u.trail.state == some mark.state && u.place.offset == place
    if mark.place == place || known then g.tryLandmarks v look count marks
    else
      let cost := version.cost + mark.depth * pieceCost + s.ruler.cost mark.place place
      if ← betterExists v cost then return false
      else
        let choices ← Attempt.choices g.language.grammar (some mark.state) look.token
        if look.piece.label == .comment || choices.reads || choices.accepts
            || !choices.ended.isEmpty then
          let depth := if 0 < version.progress then mark.depth + 1 else mark.depth
          if ← goBack v depth mark.state then return true
          else g.tryLandmarks v look count marks
        else g.tryLandmarks v look count marks

/-- Passes over a token. -/
def passOver (v : Nat) (look : Look) : Attempt Unit := do
  if let some version ← Attempt.version? v then
    let s ← get
    let one := Piece.passedOver s.ruler look.piece []
    let (trail, piece) := if 0 < version.progress then
        match Trail.pop s.depth 1 version.trail with
        | ⟨trail, first :: rest, _⟩ :: _ =>
          (trail, Piece.passedOver s.ruler first (rest ++ [one]))
        | _ => (version.trail, one)
      else (version.trail, one)
    let new ← Attempt.pushed { version with trail } (some piece) none
    Attempt.update v fun _ => { new with place := look.after }

/-- Goes on with a broken reading: back to a landmark, and also over the token, unless that would
be worse than a reading that exists. At the end of the text the reading is taken as it is. -/
def recover (g : Guide) (v : Nat) (look : Look) : Attempt Unit := do
  Attempt.update v Version.settled
  let some version ← Attempt.version? v | return
  let count ← Attempt.count
  let s ← get
  let wentBack ← if look.piece.label == .junk then pure false
    else g.tryLandmarks v look count version.landmarks
  if look.token == 0 then accept v look true
  else if wentBack && versionLimit < (← Attempt.count) then
    Attempt.update v fun version => { version with status := .halted }
  else
    let cost := version.cost + pieceCost + s.ruler.cost look.piece.before look.piece.stop
    if ← betterExists v cost then
      Attempt.update v fun version => { version with status := .halted }
    else passOver v look

/-- Breaks a reading off before a token. One missing token is supposed where that helps. -/
def breakOff (g : Guide) (v : Nat) (look : Look) : Attempt Unit := do
  let first ← Attempt.count
  let _ ← g.finishFrom v 0
  let count ← Attempt.count
  let mut found := false
  for n in v :: (List.range count).drop first do
    if !found then
      found ← g.supposeMissing n look
    Attempt.push n none none
  for _ in (List.range count).drop first do
    let _ ← Attempt.merge v first
  let s ← get
  Attempt.update v fun version =>
    { version with landmarks := Trail.landmarks s.depth version.trail }
  g.recover v look

/-! ### Going on -/

/-- Moves a reading over one token. -/
def advance (g : Guide) : (fuel : Nat) → (v : Nat) → Option Look → Attempt Unit
  | 0, v, _ => Attempt.update v fun version => { version with status := .halted }
  | fuel + 1, v, known => do
    let some version ← Attempt.version? v | return
    let look ← match known with
      | some look => pure look
      | none => g.look version
    match version.trail.state with
    | none => g.recover v look
    | some n =>
      if look.piece.label == .comment then
        Attempt.push v (some look.piece) (some n)
        Attempt.update v fun version => { version with place := look.after }
      else
        let choices ← Attempt.choices g.language.grammar (some n) look.token
        if choices.accepts then accept v look false
        else
          let mut last : Option Nat := none
          for p in choices.ended do
            if let some p := g.language.grammar.productions[p]? then
              if let some new ← g.finish v p.rule p.symbols.size then
                last := some new
          if choices.reads then
            if let some next ← Attempt.next g.language.grammar (some n) (.token look.token) then
              Attempt.push v (some look.piece) (some next)
              Attempt.update v fun version => { version with place := look.after }
          else
            match last with
            | some new =>
              Attempt.renumber new v
              g.advance fuel v (some look)
            | none =>
              let plain ← Attempt.choices g.language.grammar (some n) g.language.plainWord
              if !choices.ended.isEmpty then
                Attempt.update v fun version => { version with status := .halted }
              else if g.language.words.has look.token
                  && (plain.reads || !plain.ended.isEmpty) then
                g.advance fuel v (some { look with
                  piece := { look.piece with label := .token g.language.plainWord }
                  token := g.language.plainWord })
              else
                Attempt.update v fun version => { version with status := .waiting look }

/-- Compares the `i`-th reading with the one before it at `j` and those that follow, and drops or
swaps readings. Returns where the `i`-th reading has gone. -/
def compareWith : (fuel : Nat) → (i j : Nat) → Attempt Nat
  | 0, i, _ => return i
  | fuel + 1, i, j =>
    if i ≤ j then return i
    else do
      match ← Attempt.version? j, ← Attempt.version? i with
      | some a, some b =>
        match a.standing.compare b.standing with
        | .onlyFirst =>
          Attempt.remove i
          return i - 1
        | .onlySecond =>
          Attempt.remove j
          compareWith fuel (i - 1) j
        | .second =>
          if ← Attempt.merge j i then return i - 1
          else
            Attempt.update i fun _ => a
            Attempt.update j fun _ => b
            compareWith fuel i (j + 1)
        | _ => if ← Attempt.merge j i then return i - 1 else compareWith fuel i (j + 1)
      | _, _ => return i

/-- Drops the readings that are halted or hopeless and orders the others. -/
def weed : (fuel : Nat) → (i : Nat) → Attempt Unit
  | 0, _ => return
  | fuel + 1, i => do
    match ← Attempt.version? i with
    | none => return
    | some v =>
      if v.isHalted then
        Attempt.remove i
        weed fuel i
      else
        Attempt.update i Version.settled
        let n ← compareWith (i + 1) i 0
        weed fuel (n + 1)

/-- Breaks off the first reading if it waits, and drops the other waiting ones. -/
def resume (g : Guide) : (fuel : Nat) → (i : Nat) → (isActive : Bool) → Attempt Unit
  | 0, _, _ => return
  | fuel + 1, i, isActive => do
    match ← Attempt.version? i with
    | none => return
    | some v =>
      match v.status with
      | .waiting look =>
        if !isActive && (← get).accepts < versionLimit then
          Attempt.update i fun v => { v with status := .active }
          g.breakOff i look
          g.resume fuel (i + 1) true
        else
          Attempt.remove i
          g.resume fuel i isActive
      | _ => g.resume fuel (i + 1) true

/-- Moves a reading until it is farther than the ones before it. -/
def advanceTo (g : Guide) : (fuel : Nat) → (v farthest : Nat) → Attempt Nat
  | 0, _, farthest => return farthest
  | fuel + 1, v, farthest => do
    match ← Attempt.version? v with
    | none => return farthest
    | some version =>
      if version.isActive then
        g.advance finishLimit v none
        let place := ((← Attempt.version? v).map (·.place.offset)).getD 0
        if farthest < place || (v != 0 && place == farthest) then return place
        else g.advanceTo fuel v farthest
      else return farthest

/-- Moves all readings, one after another. -/
def advanceAll (g : Guide) (length : Nat) : (fuel : Nat) → (v farthest : Nat) → Attempt Nat
  | 0, _, farthest => return farthest
  | fuel + 1, v, farthest => do
    if v < (← Attempt.count) then
      let farthest ← g.advanceTo (length + 2) v farthest
      g.advanceAll length fuel (v + 1) farthest
    else return farthest

/-- The least cost of a reading that may still become a whole one: that of the first reading, if
it waits, and else that of any reading that is not broken. -/
def leastCost : Attempt (Option Nat) := do
  let s ← get
  let sound := s.versions.toList.filter fun v => !v.standing.isBroken
  match s.versions.toList.find? fun v => !v.isWaiting || s.accepts < versionLimit with
  | some v => if v.isWaiting then return some v.cost else return (sound.map Version.cost).min?
  | none => return none

/-- Goes on until the best reading is a whole one. -/
def run (g : Guide) (length : Nat) : (fuel : Nat) → (farthest : Nat) → Attempt Unit
  | 0, _ => return
  | fuel + 1, farthest => do
    if 0 < (← Attempt.count) then
      let farthest ← g.advanceAll length finishLimit 0 farthest
      weed finishLimit 0
      let least ← leastCost
      modify fun s => { s with versions := s.versions.extract 0 versionLimit }
      g.resume finishLimit 0 false
      match (← get).accepted, least with
      | some whole, some cost => if whole.cost < cost then return else g.run length fuel farthest
      | some _, none => return
      | none, _ => g.run length fuel farthest

/-- The place of the first fault in a text behind an offset, if it lies anywhere. -/
def firstFault (g : Guide) (offset : Nat) (text : List Char) : Option Nat :=
  let first : Version :=
    { trail := .node 0 (some 0) offset 0 0 [], place := ⟨offset, text.drop offset⟩ }
  let start : Session :=
    { automaton := g.merged.get
      ruler := Ruler.ofText text
      versions := #[first]
      depth := 8 * (text.length + 64) }
  let s := ((g.run text.length (8 * (text.length + 64)) 0).run start).2
  s.accepted.bind (·.fault)

end Guide

end SourceAtlas.Parsing.Repair
