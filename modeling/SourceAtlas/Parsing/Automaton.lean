import SourceAtlas.Parsing.Grammar
import Std.Data.TreeMap

/-!
# States of reading

A state tells how far the productions are read that may be under way: its items are productions
with a place inside them and the tokens that may follow them as a whole. From the items follow
the rules that may begin at the state, each with the tokens that may follow it there. A token is
acted on by reading on, by ending a production, or in several of these ways at once. Where the
ranks of productions differ, or their sides tell, fewer ways remain.

States are made when they are needed and kept under numbers.
-/

namespace SourceAtlas.Parsing

/-- A production that is read up to a place. -/
structure Item where
  production : Nat
  /-- The number of symbols that are read. -/
  place : Nat
  /-- The tokens that may follow the production. -/
  follow : TokenSet
  deriving DecidableEq, Repr

/-- A state of reading. -/
structure State where
  /-- The productions that are under way, by their numbers. -/
  items : List Item
  /-- For every rule, the tokens that may follow it if it begins here; none if it may not. -/
  upcoming : Array TokenSet
  /-- The tokens that can be read. -/
  readable : TokenSet
  /-- The tokens on which something is done. -/
  possible : TokenSet

namespace Item

variable {τ ν : Type}

/-- The production of an item. -/
def production? (g : Grammar τ ν) (i : Item) : Option Production :=
  g.productions[i.production]?

/-- The symbol behind the place of an item. -/
def next? (g : Grammar τ ν) (i : Item) : Option Symbol :=
  (i.production? g).bind (·.symbols[i.place]?)

/-- The tokens that may follow the symbol behind the place of an item. -/
def behindNext (g : Grammar τ ν) (i : Item) : TokenSet :=
  match (i.production? g).bind (·.symbols[i.place + 1]?) with
  | some s => Grammar.beginning g.firsts s
  | none => i.follow

/-- The rank of an item's production. -/
def rank (g : Grammar τ ν) (i : Item) : Int :=
  ((i.production? g).map (·.rank)).getD 0

/-- The rule of an item's production. -/
def rule (g : Grammar τ ν) (i : Item) : Nat :=
  ((i.production? g).map (·.rule)).getD 0

/-- Items are kept by production and place. -/
def isBefore (a b : Item) : Bool :=
  a.production < b.production || (a.production == b.production && a.place ≤ b.place)

/-- The items of two lists in their order, if both lists are in order. -/
def mergeSorted : List Item → List Item → List Item
  | [], bs => bs
  | a :: as, bs =>
    let (before, after) := bs.span fun b => !a.isBefore b
    before ++ a :: mergeSorted as after

end Item

/-! ### What may begin -/

/-- What may follow the rules that may begin, by rule, and the rules that have to be looked at
because what may follow them has become more. -/
structure Outlook where
  upcoming : Array TokenSet
  work : List Nat

namespace Outlook

variable {τ ν : Type}

/-- Adds tokens that may follow a rule. If they are new, the rule has to be looked at again. -/
def expect (o : Outlook) (rule : Nat) (tokens : TokenSet) : Outlook :=
  let known := o.upcoming.getD rule 0
  let all := known.union tokens
  if all == known then o else ⟨o.upcoming.setIfInBounds rule all, rule :: o.work⟩

/-- Adds tokens that may follow several rules. -/
def expectAll (o : Outlook) (wants : List (Nat × TokenSet)) : Outlook :=
  wants.foldl (fun o want => o.expect want.1 want.2) o

/-- The rule behind the place of an item, and what may follow it there. -/
def wantOf? (g : Grammar τ ν) (i : Item) : Option (Nat × TokenSet) :=
  match i.next? g with
  | some (.rule r) => some (r, (i.behindNext g).union (g.forced.getD r 0))
  | _ => none

/-- The rule of a lead, and what may follow it when `follow` may follow the rule that it begins. -/
def wantOf (g : Grammar τ ν) (follow : TokenSet) (lead : Lead) : Nat × TokenSet :=
  let tokens := if lead.ends then lead.behind.union follow else lead.behind
  (lead.rule, tokens.union (g.forced.getD lead.rule 0))

/-- Passes on what may follow the rules of `work` to the rules that begin them. -/
def spread (g : Grammar τ ν) : (fuel : Nat) → Outlook → Array TokenSet
  | 0, o => o.upcoming
  | fuel + 1, ⟨upcoming, work⟩ =>
    match work with
    | [] => upcoming
    | rule :: work =>
      let wants := (g.leads.getD rule []).map (wantOf g (upcoming.getD rule 0))
      spread g fuel (expectAll ⟨upcoming, work⟩ wants)

end Outlook

namespace State

variable {τ ν : Type}

/-- The rules that may begin at a state with the given items. -/
def upcomingOf (g : Grammar τ ν) (items : List Item) : Array TokenSet :=
  Outlook.spread g (g.ruleCount * (g.tokens.size + 1))
    (Outlook.expectAll ⟨Array.replicate g.ruleCount 0, []⟩ (items.filterMap (Outlook.wantOf? g)))

/-- The state with the given items. -/
def ofItems (g : Grammar τ ν) (items : List Item) : State :=
  let upcoming := upcomingOf g items
  let behindItems := items.foldl
    (fun set i => match i.next? g with
      | some (.token t) => set.union (TokenSet.single t)
      | _ => set)
    0
  let readable := (List.range upcoming.size).foldl
    (fun set r => if (upcoming.getD r 0).isInhabited then set.union (g.openings.getD r 0) else set)
    behindItems
  let ending := items.foldl
    (fun set i => if (i.next? g).isNone then set.union i.follow else set) 0
  { items := items
    upcoming := upcoming
    readable := readable
    possible := readable.union ending }

/-- An item behind the symbol that it asks for. -/
def pass? (g : Grammar τ ν) (symbol : Symbol) (i : Item) : Option Item :=
  if i.next? g == some symbol then some { i with place := i.place + 1 } else none

/-- The item of a production behind its first symbol, if its rule may begin. -/
def begin? (g : Grammar τ ν) (s : State) (production : Nat) : Option Item :=
  let follow := s.upcoming.getD ((g.productions[production]?.map (·.rule)).getD 0) 0
  if follow.isInhabited then some { production := production, place := 1, follow := follow }
  else none

/-- The items behind a symbol. -/
def itemsBehind (g : Grammar τ ν) (s : State) (symbol : Symbol) : List Item :=
  Item.mergeSorted (s.items.filterMap (pass? g symbol))
    ((g.startingWith symbol).filterMap (begin? g s))

/-! ### What is done on a token -/

/-- What is done on a token. -/
structure Choices where
  /-- The productions that are ended. -/
  ended : List Nat := []
  /-- The token is read. -/
  reads : Bool := false
  /-- The whole text is read. -/
  accepts : Bool := false

/-- The items of highest rank. -/
def strongest (g : Grammar τ ν) (items : List Item) : List Item :=
  items.filter fun i => items.all fun j => j.rank g ≤ i.rank g

/-- The production of `a` is ended before the one of `b`: shorter ones come first, then the rule
decides. -/
def endsBefore (g : Grammar τ ν) (a b : Item) : Bool :=
  a.place < b.place || (a.place == b.place && a.rule g ≤ b.rule g)

/-- The items in the order in which their productions are ended. -/
def endingOrder (g : Grammar τ ν) (items : List Item) : List Item :=
  items.foldr
    (fun a sorted =>
      let (before, after) := sorted.span fun b => !endsBefore g a b
      before ++ a :: after)
    []

/-- The ranks of the items that read on with a token. -/
def readingRanks (g : Grammar τ ν) (s : State) (t : Nat) : List Int :=
  s.items.filterMap fun i =>
    match i.next? g with
    | some symbol =>
      if 0 < i.place && (Grammar.beginning g.firsts symbol).has t then some (i.rank g) else none
    | none => none

/-- What remains of ending productions and reading on, where both are possible. The higher rank
wins; of equal ranks the sides of the productions decide, if they agree. -/
def settle (ranks : List Int) (rank : Int) (sides : List (Option Side)) (ended : List Nat) :
    Choices :=
  let lower := ranks.any (· < rank)
  let higher := ranks.any (rank < ·)
  if lower && !higher then { ended := ended }
  else if higher && !lower then { reads := true }
  else if !lower && !higher && sides.all (· == some .left) then { ended := ended }
  else if !lower && !higher && sides.all (· == some .right) then { reads := true }
  else { ended := ended, reads := true }

/-- What is done on a token. -/
def choices (g : Grammar τ ν) (s : State) (t : Nat) : Choices :=
  let complete := s.items.filter fun i => (i.next? g).isNone && i.follow.has t
  if complete.any (·.production == g.wholeProduction) then { accepts := true }
  else
    match complete with
    | [] => { reads := s.readable.has t }
    | _ =>
      let ending := endingOrder g (strongest g complete)
      let ended := ending.map (·.production)
      if s.readable.has t then
        settle (readingRanks g s t) ((ending.head?.map (·.rank g)).getD 0)
          (ending.map fun i => (i.production? g).bind (·.side)) ended
      else { ended := ended }

end State

/-! ### States by number -/

/-- The states that were needed so far. -/
structure Automaton where
  states : Array State := #[]
  /-- The numbers of the states with given items, by a key of the items. -/
  byItems : Std.TreeMap Nat (List Nat) := {}
  /-- Where a symbol leads from a state. -/
  moves : Std.TreeMap Nat Nat := {}

namespace Automaton

variable {τ ν : Type}

/-- A number for items that differs for most items. -/
def keyOf (items : List Item) : Nat :=
  (items.foldl
    (fun (key : UInt64) i =>
      key * 1000003 + (i.production * 64 + i.place).toUInt64 + i.follow.toUInt64 * 31)
    0).toNat

/-- The state with a number. -/
def state? (a : Automaton) (n : Nat) : Option State :=
  a.states[n]?

/-- The number of the state with the given items. -/
def stateOf (a : Automaton) (g : Grammar τ ν) (items : List Item) : Nat × Automaton :=
  let key := keyOf items
  let known := a.byItems.getD key []
  match known.find? fun n => (a.states[n]?.map (·.items)) == some items with
  | some n => (n, a)
  | none =>
    let n := a.states.size
    (n, { a with
      states := a.states.push (State.ofItems g items)
      byItems := a.byItems.insert key (n :: known) })

/-- The automaton with the state at the start of a text as its only state. -/
def start (g : Grammar τ ν) : Automaton :=
  (stateOf {} g [{ production := g.wholeProduction, place := 0, follow := TokenSet.single 0 }]).2

/-- The number of a state and a symbol together. -/
def moveKey (n : Nat) (symbol : Symbol) : Nat :=
  (n + symbol.code) * (n + symbol.code) + symbol.code

/-- The state that a symbol leads to. -/
def move (a : Automaton) (g : Grammar τ ν) (n : Nat) (symbol : Symbol) : Option Nat × Automaton :=
  let key := moveKey n symbol
  match a.moves[key]? with
  | some m => (some m, a)
  | none =>
    match a.states[n]? with
    | none => (none, a)
    | some s =>
      match s.itemsBehind g symbol with
      | [] => (none, a)
      | items =>
        let (m, a) := a.stateOf g items
        (some m, { a with moves := a.moves.insert key m })

end Automaton

end SourceAtlas.Parsing
