import SourceAtlas.Parsing.Automaton
import SourceAtlas.Parsing.Stack

/-!
# Reading a text

A text is read from left to right by several versions at once, which are the readings that are
still possible. A version is a stack and a place in the text. At its place it looks for a token
among those on which its state does something. What it takes for a word of the grammar there it
takes for a plain name once the word leads no further. Versions that reach the same state at the
same place go on as one.
-/

namespace SourceAtlas.Parsing

/-- A place in a text, behind a token. -/
structure Place where
  offset : Nat
  /-- The text behind the place. -/
  rest : List Char

/-- The place behind some further characters. -/
def Place.skip (p : Place) (n : Nat) : Place :=
  ⟨p.offset + n, p.rest.drop n⟩

/-- A token in a text. -/
structure Lexeme where
  token : Nat
  start : Nat
  /-- The place behind the token. -/
  after : Place

/-- A language: its grammar and its tokens. -/
structure Language where
  Terminal : Type
  Phrase : Type
  grammar : Grammar Terminal Phrase
  /-- The next token, if it is one of the given ones. -/
  scan : TokenSet → Place → Option Lexeme
  /-- The tokens that are words of the grammar. -/
  words : TokenSet
  /-- The token that a word is if it is no word of the grammar. -/
  plainWord : Nat

/-- A reading under way. -/
structure Version where
  stack : Stack
  place : Place

/-- What readings share: the states that were needed, and the next free mark for stacks. -/
structure Workspace where
  automaton : Automaton
  free : Nat := 1

/-- A computation that shares the workspace. -/
abbrev Work := StateM Workspace

namespace Work

/-- The state with a number. -/
def state? (n : Nat) : Work (Option State) := do
  return (← get).automaton.state? n

/-- A stack with a new mark. -/
def push (state offset : Nat) (tree : Tree) (below : Stack) : Work Stack := do
  let w ← get
  set { w with free := w.free + 1 }
  return .node w.free state offset [(tree, below)]

/-- The stack behind a symbol that reaches up to an offset. -/
def advance {τ ν : Type} (g : Grammar τ ν) (s : Stack) (offset : Nat) (symbol : Symbol)
    (tree : Tree) : Work (Option Stack) := do
  let w ← get
  let (next, automaton) := w.automaton.move g s.state symbol
  set { w with automaton := automaton }
  match next with
  | some n => return some (← push n offset tree s)
  | none => return none

/-- Ends a production: the stacks on which its trees are replaced by one. -/
def finish {τ ν : Type} (g : Grammar τ ν) (s : Stack) (production : Nat) : Work (List Stack) :=
  match g.productions[production]? with
  | none => return []
  | some p =>
    (Stack.firstEach [] (s.pop p.symbols.size [])).filterMapM fun (trees, base) =>
      advance g base s.offset (.rule p.rule) (Tree.ofChildren p.rule s.offset trees)

/-- How deep stacks are compared when they are joined. -/
def mergeDepth : Nat := 100000

/-- Adds a version to others, joined with one in the same state at the same place. -/
def enqueue (v : Version) : List Version → Work (List Version)
  | [] => return [v]
  | u :: us =>
    if u.stack.state == v.stack.state && u.place.offset == v.place.offset then do
      let w ← get
      let (stack, free) := Stack.merge mergeDepth w.free u.stack v.stack
      set { w with free := free }
      return { u with stack := stack } :: us
    else do
      return u :: (← enqueue v us)

/-- Adds several versions to others. -/
def enqueueAll (vs : List Version) (us : List Version) : Work (List Version) :=
  vs.foldlM (fun us v => enqueue v us) us

end Work

/-- How far a version came with one token. -/
inductive Step where
  | moved (v : Version)
  | stuck
  | accepted (trees : List Tree)

namespace Language

/-- Moves a version over one token, which is looked for unless it is known. The other readings
that come up on the way are returned as well. -/
def step (l : Language) : (fuel : Nat) → Version → Option Lexeme → (others : List Version) →
    Work (Step × List Version)
  | 0, _, _, others => return (.stuck, others)
  | fuel + 1, v, known, others => do
    let some state ← Work.state? v.stack.state | return (.stuck, others)
    let some x := known <|> l.scan state.possible v.place | return (.stuck, others)
    let choices := state.choices l.grammar x.token
    if choices.accepts then return (.accepted (v.stack.links.map Prod.fst), others)
    else if choices.reads then
      let ended ← choices.ended.mapM (Work.finish l.grammar v.stack)
      let others := others ++ ended.flatten.map fun s => { v with stack := s }
      match ← Work.advance l.grammar v.stack x.after.offset (.token x.token)
          (.leaf x.token x.start x.after.offset) with
      | some s => return (.moved ⟨s, x.after⟩, others)
      | none => return (.stuck, others)
    else if choices.ended.isEmpty then
      if l.words.has x.token && state.possible.has l.plainWord then
        step l fuel v (some { x with token := l.plainWord }) others
      else return (.stuck, others)
    else
      let ended ← choices.ended.mapM (Work.finish l.grammar v.stack)
      match ended.getLast?.getD [] with
      | [] => return (.stuck, others)
      | main :: more =>
        let others := others
          ++ (ended.dropLast.flatten ++ more).map fun s => { v with stack := s }
        step l fuel { v with stack := main } (some x) others

/-- What came of moving all versions over one token. -/
structure Round where
  versions : List Version := []
  accepted : List Tree := []

/-- Moves the versions at the place `offset` over one token, and leaves those behind it. -/
def round (l : Language) (offset : Nat) (stepFuel : Nat) : (fuel : Nat) → List Version → Round →
    Work Round
  | 0, _, r => return r
  | _ + 1, [], r => return r
  | fuel + 1, v :: vs, r =>
    if v.place.offset != offset then do
      round l offset stepFuel fuel vs { r with versions := ← Work.enqueue v r.versions }
    else do
      let (result, others) ← step l stepFuel v none []
      let vs ← Work.enqueueAll others vs
      match result with
      | .moved v =>
        round l offset stepFuel fuel vs { r with versions := ← Work.enqueue v r.versions }
      | .stuck => round l offset stepFuel fuel vs r
      | .accepted trees =>
        round l offset stepFuel fuel vs { r with accepted := r.accepted ++ trees }

/-- Moves versions on until they end, and returns the whole readings. -/
def run (l : Language) (stepFuel : Nat) : (fuel : Nat) → List Version → (accepted : List Tree) →
    Work (List Tree)
  | 0, _, accepted => return accepted
  | fuel + 1, vs, accepted =>
    match vs with
    | [] => return accepted
    | v :: rest => do
      let offset := rest.foldl (fun n u => min n u.place.offset) v.place.offset
      let r ← round l offset stepFuel stepFuel vs {}
      run l stepFuel fuel r.versions (accepted ++ r.accepted)

/-- The workspace at the start of a text. -/
def workspace (l : Language) : Workspace where
  automaton := Automaton.start l.grammar

/-- The reading at the start of a text. -/
def firstVersion (text : List Char) (offset : Nat) : Version where
  stack := .node 0 0 offset []
  place := ⟨offset, text⟩

/-- More steps than are needed for a text of the given length. -/
def stepsFor (length : Nat) : Nat :=
  64 * (length + 16)

/-- The ways to read a text from an offset on, or none if it cannot be read. -/
def read (l : Language) (offset : Nat) (text : List Char) : List Tree :=
  ((run l (stepsFor text.length) (text.length + 2) [firstVersion text offset] []).run
    l.workspace).1

end Language

end SourceAtlas.Parsing
