import Mathlib.Data.List.Basic
import SourceAtlas.Parsing.Run

/-!
# Derivations

A tree is derived by a grammar if every rule in it is read from what one of its productions asks for.
Its tokens, from left to right, stand in the text one behind the other: each is found by looking for
a token from the place on at which the one before it ended (`Chain`). Which tokens are looked for is
told by a state, and that state is one to which what was read before leads (`Reached`).
-/

namespace SourceAtlas.Parsing

/-- A token in a tree. -/
structure Leaf where
  token : Nat
  start : Nat
  stop : Nat
  deriving DecidableEq, Repr

namespace Tree

/-- What a tree stands for in a production. -/
def symbol : Tree → Symbol
  | leaf token _ _ => .token token
  | node rule _ _ _ => .rule rule

mutual

/-- The tokens of a tree, from left to right. -/
def leaves : Tree → List Leaf
  | leaf token start stop => [⟨token, start, stop⟩]
  | node _ _ _ children => leavesAll children

/-- The tokens of several trees in a row. -/
def leavesAll : List Tree → List Leaf
  | [] => []
  | tree :: trees => tree.leaves ++ leavesAll trees

end

@[simp]
theorem leavesAll_append (trees trees' : List Tree) :
  leavesAll (trees ++ trees') = leavesAll trees ++ leavesAll trees'
  := by
  induction trees with
  | nil => rfl
  | cons tree trees ih => rw [List.cons_append, leavesAll, leavesAll, ih, List.append_assoc]

theorem leavesAll_eq_flatMap (trees : List Tree) :
  leavesAll trees = trees.flatMap leaves
  := by
  induction trees with
  | nil => rfl
  | cons tree trees ih => rw [leavesAll, ih, List.flatMap_cons]

@[simp]
theorem leaves_ofChildren (rule place : Nat) (children : List Tree) :
  (ofChildren rule place children).leaves = leavesAll children
  := by
  rw [ofChildren, leaves]

@[simp]
theorem symbol_ofChildren (rule place : Nat) (children : List Tree) :
  (ofChildren rule place children).symbol = .rule rule
  := rfl

end Tree

/-! ### Derived trees -/

section Derives

variable {τ ν : Type} {g : Grammar τ ν}

/-- Every rule in the tree was read from the symbols of a production. -/
inductive Derives (g : Grammar τ ν) : Tree → Prop where
  | leaf (token start stop : Nat) : Derives g (.leaf token start stop)
  | node {p : Production} (place : Nat) {children : List Tree} (mem : p ∈ g.productions)
      (row : children.map Tree.symbol = p.symbols.toList) (inhabited : children ≠ [])
      (derived : ∀ child ∈ children, Derives g child) :
      Derives g (Tree.ofChildren p.rule place children)

namespace Derives

variable {tree : Tree}

theorem leaves_ne_nil (h : Derives g tree) :
  tree.leaves ≠ []
  := by
  induction h with
  | leaf token start stop => simp [Tree.leaves]
  | @node p place children mem row inhabited derived ih =>
    obtain ⟨child, rest, rfl⟩ := List.exists_cons_of_ne_nil inhabited
    simp [Tree.leavesAll, ih child List.mem_cons_self]

/-- A tree starts where its first token does. -/
theorem head?_leaves (h : Derives g tree) :
  tree.leaves.head?.map Leaf.start = some tree.start
  := by
  induction h with
  | leaf token start stop => rfl
  | @node p place children mem row inhabited derived ih =>
    obtain ⟨child, rest, rfl⟩ := List.exists_cons_of_ne_nil inhabited
    have first := List.mem_cons_self (a := child) (l := rest)
    rw [Tree.leaves_ofChildren, Tree.leavesAll,
      List.head?_append_of_ne_nil _ (derived child first).leaves_ne_nil, ih child first]
    rfl

/-- A tree stops where its last token does. -/
theorem getLast?_leaves (h : Derives g tree) :
  tree.leaves.getLast?.map Leaf.stop = some tree.stop
  := by
  induction h with
  | leaf token start stop => rfl
  | @node p place children mem row inhabited derived ih =>
    obtain empty | ⟨before, child, rfl⟩ := List.eq_nil_or_concat' children
    · contradiction
    · have last : child ∈ before ++ [child] := by simp
      rw [Tree.leaves_ofChildren, Tree.leavesAll_append, Tree.leavesAll, Tree.leavesAll,
        List.append_nil, List.getLast?_append_of_ne_nil _ (derived child last).leaves_ne_nil,
        ih child last, Tree.ofChildren, Tree.stop, List.getLast?_concat]
      rfl

end Derives

end Derives

/-! ### Tokens in a text -/

/-- The place at an offset in a text. -/
def Place.inText (text : List Char) (offset : Nat) : Place :=
  ⟨offset, text.drop offset⟩

@[simp]
theorem Place.skip_inText (text : List Char) (offset n : Nat) :
  (inText text offset).skip n = inText text (offset + n)
  := by
  rw [skip, inText, inText, List.drop_drop]

/-- The item from which a text is read. -/
def Grammar.startItem {τ ν : Type} (g : Grammar τ ν) : Item where
  production := g.wholeProduction
  place := 0
  follow := TokenSet.single 0

/-- The state at the start of a text. -/
def Grammar.startState {τ ν : Type} (g : Grammar τ ν) : State :=
  State.ofItems g [g.startItem]

/-- Nothing is done on a token. -/
def State.Choices.isIdle (c : State.Choices) : Bool :=
  !c.accepts && !c.reads && c.ended.isEmpty

/-- The state behind a symbol. -/
def State.behind {τ ν : Type} (g : Grammar τ ν) (q : State) (symbol : Symbol) : State :=
  .ofItems g (q.itemsBehind g symbol)

/-- The state that symbols lead to, one after the other, from the start of a text. -/
inductive Grammar.Leads {τ ν : Type} (g : Grammar τ ν) : List Symbol → State → Prop where
  | start : Leads g [] g.startState
  | behind {symbols : List Symbol} {q : State} (before : Leads g symbols q) (symbol : Symbol)
      (inhabited : q.itemsBehind g symbol ≠ []) :
      Leads g (symbols ++ [symbol]) (q.behind g symbol)

section Chain

variable (l : Language) (text : List Char)

section States

variable (S : Nat → State → Prop)

/-- The token is found in the text by looking for one from the offset `o` on: as a token that one of
the states at the offset wants, or as a plain name that was a word at first, on which one of these
states does nothing. -/
inductive FoundBy : Leaf → Nat → Prop where
  | token {o : Nat} {q : State} {x : Lexeme} (reached : S o q)
      (scanned : l.scan q.possible (.inText text o) = some x) :
      FoundBy ⟨x.token, x.start, x.after.offset⟩ o
  | plain {o : Nat} {q q' : State} {x : Lexeme} (reached : S o q)
      (scanned : l.scan q.possible (.inText text o) = some x)
      (word : l.words.has x.token = true) (reached' : S o q')
      (idle : (q'.choices l.grammar x.token).isIdle = true) :
      FoundBy ⟨l.plainWord, x.start, x.after.offset⟩ o

/-- The tokens are found one behind the other, from an offset on up to another. -/
inductive ChainBy : Nat → List Leaf → Nat → Prop where
  | nil (o : Nat) : ChainBy o [] o
  | cons {o stop : Nat} {leaf : Leaf} {leaves : List Leaf} (found : FoundBy l text S leaf o)
      (rest : ChainBy leaf.stop leaves stop) : ChainBy o (leaf :: leaves) stop

end States

namespace ChainBy

variable {l text} {S : Nat → State → Prop}

theorem append {a b c : Nat} {xs ys : List Leaf} (hx : ChainBy l text S a xs b)
    (hy : ChainBy l text S b ys c) :
  ChainBy l text S a (xs ++ ys) c
  := by
  induction hx with
  | nil o => apply hy
  | cons found rest ih => exact .cons found (ih hy)

/-- The tokens of the first trees in a row are found before those of the others. -/
theorem split {a c : Nat} {xs ys : List Leaf} (h : ChainBy l text S a (xs ++ ys) c) :
  ∃ b, ChainBy l text S a xs b ∧ ChainBy l text S b ys c
  := by
  induction xs generalizing a with
  | nil => exact ⟨a, .nil a, h⟩
  | cons x xs ih =>
    cases h with
    | cons found rest =>
      obtain ⟨b, hx, hy⟩ := ih rest
      exact ⟨b, .cons found hx, hy⟩

end ChainBy

variable (start : Nat)

/-- The states at an offset: those to which the symbols of derived trees lead whose tokens are found
one behind the other, from the start of the text up to the offset. -/
inductive Reached : Nat → State → Prop where
  | row {o : Nat} {q : State} (trees : List Tree) (derived : ∀ tree ∈ trees, Derives l.grammar tree)
      (tokens : ChainBy l text Reached start (Tree.leavesAll trees) o)
      (leads : l.grammar.Leads (trees.map Tree.symbol) q) :
      Reached o q

/-- The token is found from the offset on by a state that is reached there. -/
abbrev Found (o : Nat) (leaf : Leaf) : Prop :=
  FoundBy l text (Reached l text start) leaf o

/-- The tokens are found one behind the other, each by a state that is reached there. -/
abbrev Chain (o : Nat) (leaves : List Leaf) (stop : Nat) : Prop :=
  ChainBy l text (Reached l text start) o leaves stop

variable {l text start}

theorem Reached.atStart :
  Reached l text start start l.grammar.startState
  := .row [] (by simp) (.nil start) .start

/-- Behind the next tree the state is reached that it leads to. -/
theorem Reached.behind {o stop : Nat} {q : State} (h : Reached l text start o q) {tree : Tree}
    (derived : Derives l.grammar tree) (tokens : Chain l text start o tree.leaves stop)
    (inhabited : q.itemsBehind l.grammar tree.symbol ≠ []) :
  Reached l text start stop (q.behind l.grammar tree.symbol)
  := by
  obtain ⟨trees, known, chain, leads⟩ := h
  apply Reached.row (trees ++ [tree])
  · exact List.forall_mem_append.mpr ⟨known, by simpa using derived⟩
  · rw [Tree.leavesAll_append, Tree.leavesAll, Tree.leavesAll, List.append_nil]
    apply chain.append tokens
  · rw [List.map_append, List.map_singleton]
    apply leads.behind tree.symbol inhabited

/-- The tree is a reading of the text from the start on: it is derived from the first rule, its
tokens are found one behind the other, and behind them the end of the text is found. -/
structure Reading (l : Language) (text : List Char) (start : Nat) (tree : Tree) : Prop where
  derived : Derives l.grammar tree
  whole : tree.symbol = .rule 0
  tokens : ∃ stop, Chain l text start start tree.leaves stop
    ∧ ∃ leaf, Found l text start stop leaf ∧ leaf.token = 0

end Chain

end SourceAtlas.Parsing
