import SourceAtlas.Parsing.Automaton

/-!
# Merged states

Productions of one rule that are equally long and have the same symbols left are alike from there
on. States whose productions under way are alike, and differ only in what may follow these, have
the same core. They are made one if they do nothing different on any token, if no token that is
possible in one of them only can be mistaken for one of the other's, and if they lead to states
that are made one again. The merged state lets everything follow that any of them does.
-/

namespace SourceAtlas.Parsing

variable {τ ν : Type}

namespace Production

/-- The place from which on two productions of one rule are alike: they have the same symbols left
and are judged the same, and the symbols before have the same roles. -/
def alikeFrom (role : Nat → Symbol → Nat) (p q : Production) : Option Nat :=
  if p.rule == q.rule && p.symbols.size == q.symbols.size && p.rank == q.rank
      && p.side == q.side then
    let pairs := p.symbols.toList.zip q.symbols.toList
    let left := pairs.reverse.takeWhile fun (a, b) => a == b
    let before := pairs.take (pairs.length - left.length)
    if before.all fun (a, b) => role p.rule a == role q.rule b then some before.length else none
  else none

/-- For every place in the `n`-th production, the first production that is alike from there on. -/
def firstAlike (role : Nat → Symbol → Nat) (productions : Array Production) (n : Nat) :
    Array Nat :=
  match productions[n]? with
  | none => #[]
  | some p =>
    let alike := (List.range n).filterMap fun m =>
      (productions[m]?.bind (p.alikeFrom role)).map fun place => (m, place)
    ((List.range (p.symbols.size + 1)).map fun place =>
      ((alike.find? fun (_, start) => start ≤ place).map Prod.fst).getD n).toArray

end Production

namespace Item

/-- Adds an item to a list in order. What follows equal items is joined. -/
def insert (i : Item) : List Item → List Item
  | [] => [i]
  | j :: js =>
    if i.production == j.production && i.place == j.place then
      { j with follow := j.follow.union i.follow } :: js
    else if i.isBefore j then i :: j :: js
    else j :: insert i js

/-- The items with the first productions that are alike. -/
def canonical (firsts : Array (Array Nat)) (items : List Item) : List Item :=
  items.foldr
    (fun i items =>
      let first := (firsts.getD i.production #[]).getD i.place i.production
      insert { i with production := first } items)
    []

/-- The items are the same apart from what may follow them. -/
def sameCore (as bs : List Item) : Bool :=
  as.map (fun i => (i.production, i.place)) == bs.map fun i => (i.production, i.place)

/-- The items of two states with the same core as those of one state. -/
def joinFollows (as bs : List Item) : List Item :=
  as.zipWith (fun a b => { a with follow := a.follow.union b.follow }) bs

/-- A number that depends on the core only and differs for most cores. -/
def coreKey (items : List Item) : Nat :=
  (items.foldl
    (fun (key : UInt64) i => key * 1000003 + (i.production * 64 + i.place).toUInt64) 0).toNat

end Item

namespace State

/-- The symbols that can be passed from a state. -/
def passable (g : Grammar τ ν) (s : State) : List Symbol :=
  let tokens := (List.range g.tokens.size).filter s.readable.has
  let expected := s.items.filterMap fun i =>
    match i.next? g with
    | some (.rule r) => some r
    | _ => none
  let rules := (List.range g.ruleCount).filter fun r =>
    (s.upcoming.getD r 0).isInhabited || expected.contains r
  tokens.map .token ++ rules.map .rule

/-- The tokens that may follow the complete items of just one of two states with the same core,
and are possible in both. -/
def contested (g : Grammar τ ν) (a b : State) : TokenSet :=
  let differing := (a.items.zip b.items).foldl
    (fun set (i, j) => if (i.next? g).isNone then set.union (i.follow ^^^ j.follow) else set) 0
  differing &&& a.possible &&& b.possible

/-- Both choices are the same, up to productions of the same rule and length. -/
def Choices.sameAs (g : Grammar τ ν) (a b : Choices) : Bool :=
  let shape (p : Nat) : Option (Nat × Nat) :=
    g.productions[p]?.map fun p => (p.rule, p.symbols.size)
  a.reads == b.reads && a.accepts == b.accepts && a.ended.map shape == b.ended.map shape

end State

/-! ### All states -/

/-- All states, and where symbols lead from each. -/
structure Chart where
  states : Array State := #[]
  byItems : Std.TreeMap Nat (List Nat) := {}
  moves : Array (List (Symbol × Nat)) := #[]

namespace Chart

/-- The number of the state with the given items. -/
def add (g : Grammar τ ν) (c : Chart) (items : List Item) : Nat × Chart :=
  let key := Automaton.keyOf items
  let known := c.byItems.getD key []
  match known.find? fun n => (c.states[n]?.map (·.items)) == some items with
  | some n => (n, c)
  | none =>
    let n := c.states.size
    (n, { c with
      states := c.states.push (State.ofItems g items)
      byItems := c.byItems.insert key (n :: known) })

/-- Follows all symbols from the states that come next. -/
def expand (g : Grammar τ ν) (firsts : Array (Array Nat)) : (fuel : Nat) → Chart → Chart
  | 0, c => c
  | fuel + 1, c =>
    match c.states[c.moves.size]? with
    | none => c
    | some s =>
      let (c, row) := (s.passable g).foldl
        (fun (c, row) symbol =>
          let (next, c) := c.add g (Item.canonical firsts (s.itemsBehind g symbol))
          (c, (symbol, next) :: row))
        (c, [])
      expand g firsts fuel { c with moves := c.moves.push row }

/-- More states than there are. -/
def stateLimit : Nat := 1000000

/-- The chart of a grammar. -/
def ofGrammar (g : Grammar τ ν) (role : Nat → Symbol → Nat) : Chart :=
  let first : Item := { production := g.wholeProduction, place := 0, follow := TokenSet.single 0 }
  let firsts := (Array.range g.productions.size).map (Production.firstAlike role g.productions)
  (({} : Chart).add g [first]).2.expand g firsts stateLimit

end Chart

/-! ### Groups of states -/

/-- The states in groups. -/
structure Grouping where
  groups : Array (List Nat) := #[]
  /-- The group of each state. -/
  groupOf : Array Nat := #[]

namespace Grouping

/-- The states in groups of the same core, in the order of the states. -/
def byCore (c : Chart) : Grouping :=
  let (grouping, _) := c.states.foldl
    (fun ((grouping : Grouping), (byKey : Std.TreeMap Nat (List Nat))) s =>
      let n := grouping.groupOf.size
      let key := Item.coreKey s.items
      let known := byKey.getD key []
      let fits (k : Nat) : Bool :=
        (((grouping.groups.getD k []).head?).bind (c.states[·]?)).any fun t =>
          Item.sameCore t.items s.items
      match known.find? fits with
      | some k => (⟨grouping.groups.modify k (n :: ·), grouping.groupOf.push k⟩, byKey)
      | none =>
        let k := grouping.groups.size
        (⟨grouping.groups.push [n], grouping.groupOf.push k⟩, byKey.insert key (k :: known)))
    ({}, {})
  { grouping with groups := grouping.groups.map List.reverse }

/-- Parts a list so that no two of the members that stay differ. The first member stays, and every
later one that differs from none that stays before it. The members that do not stay are returned
second. -/
def part (differ : Nat → Nat → Bool) : (fuel : Nat) → List Nat → List Nat × List Nat
  | 0, ns => (ns, [])
  | _ + 1, [] => ([], [])
  | fuel + 1, n :: ns =>
    let (gone, stay) := ns.partition (differ n)
    let (kept, more) := part differ fuel stay
    (n :: kept, gone ++ more)

/-- Splits all groups from the `k`-th on, also the new ones, where members differ. -/
def split (differ : Grouping → Nat → Nat → Bool) : (fuel : Nat) → (k : Nat) → Grouping → Grouping
  | 0, _, gs => gs
  | fuel + 1, k, gs =>
    match gs.groups[k]? with
    | none => gs
    | some members =>
      match part (differ gs) members.length members with
      | (_, []) => split differ fuel (k + 1) gs
      | (kept, gone) =>
        let new := gs.groups.size
        split differ fuel (k + 1)
          { groups := (gs.groups.setIfInBounds k kept).push gone
            groupOf := gone.foldl (fun groupOf n => groupOf.setIfInBounds n new) gs.groupOf }

/-- Splits groups until nothing changes. -/
def splitAll (differ : Grouping → Nat → Nat → Bool) : (fuel : Nat) → Grouping → Grouping
  | 0, gs => gs
  | fuel + 1, gs =>
    let more := split differ Chart.stateLimit 0 gs
    if more.groups.size == gs.groups.size then gs else splitAll differ fuel more

end Grouping

namespace Chart

/-- A symbol that counts leads to different groups. -/
def apart (counts : Symbol → Bool) (groupOf : Array Nat) :
    List (Symbol × Nat) → List (Symbol × Nat) → Bool
  | (symbol, m) :: as, (_, n) :: bs =>
    (m != n && groupOf.getD m 0 != groupOf.getD n 0 && counts symbol) || apart counts groupOf as bs
  | _, _ => false

/-- The states lead to different groups on a symbol that counts. -/
def leadApart (c : Chart) (counts : Symbol → Bool) (gs : Grouping) (a b : Nat) : Bool :=
  apart counts gs.groupOf (c.moves.getD a []) (c.moves.getD b [])

/-- The states do different things on a token, or a token that is possible in one of them only
clashes with one of the other's. -/
def clash (g : Grammar τ ν) (clashes : List (Nat × TokenSet)) (c : Chart) (gs : Grouping)
    (a b : Nat) : Bool :=
  match c.states[a]?, c.states[b]? with
  | some s, some t =>
    let only := s.possible ^^^ t.possible
    let mistaken := clashes.any fun (token, others) =>
      only.has token && ((if s.possible.has token then t else s).possible &&& others) != 0
    let contested := s.contested g t
    mistaken
      || (contested.isInhabited && (List.range g.tokens.size).any fun token =>
        contested.has token && !(s.choices g token).sameAs g (t.choices g token))
      || c.leadApart (fun symbol => match symbol with
          | .token token => (s.choices g token).reads
          | .rule _ => false) gs a b
  | _, _ => false

/-- The states in the groups that are made one. -/
def merging (g : Grammar τ ν) (clashes : List (Nat × TokenSet)) (c : Chart) : Grouping :=
  ((Grouping.byCore c).split (c.clash g clashes) stateLimit 0).splitAll
    (c.leadApart fun _ => true) stateLimit

end Chart

/-- The automaton of the merged states. The pairs of `clashes` are tokens and those for which they
can be mistaken. The role of a symbol in a rule tells apart productions that would else be
alike. -/
def Automaton.merged (g : Grammar τ ν) (clashes : List (Nat × TokenSet))
    (role : Nat → Symbol → Nat) : Automaton :=
  let c := Chart.ofGrammar g role
  let gs := c.merging g clashes
  let itemsOf (members : List Nat) : List Item :=
    match members.filterMap fun n => c.states[n]?.map (·.items) with
    | [] => []
    | items :: more => more.foldl Item.joinFollows items
  let moves := gs.groups.toList.zipIdx.foldl
    (fun (moves : Std.TreeMap Nat Nat) (members, k) =>
      (c.moves.getD (members.head?.getD 0) []).foldl
        (fun moves (symbol, n) => moves.insert (Automaton.moveKey k symbol) (gs.groupOf.getD n 0))
        moves)
    {}
  { states := gs.groups.map fun members => State.ofItems g (itemsOf members), moves := moves }

end SourceAtlas.Parsing
