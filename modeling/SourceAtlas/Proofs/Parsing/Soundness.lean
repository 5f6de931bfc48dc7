import SourceAtlas.Proofs.Parsing.States

/-!
# What is read is derived

Every tree that reading a text gives is a reading of the text: its rules are read from productions,
and its tokens are found in the text one behind the other, from the start to the end
(`Language.reading_of_mem_read`).

The argument follows the stacks. Between two states of a stack lies a derived tree, whose tokens
stand between the offsets of the two, and the items of the upper state are those of the lower one
behind the tree (`Stack.Sound`). Each state is one to which the trees of some way down to the bottom
lead, also after stacks were joined, and it is by these states that tokens are found. So a complete
item tells what the trees on top of a stack were read as, and ending its production puts a derived
tree in their place.
-/

namespace SourceAtlas.Parsing

/-- What reading relies on: the grammar is indexed, a token is found behind the place from which it
was looked for and is not empty unless it is the end of the text, and no word is the end of the
text. -/
structure Language.Lawful (l : Language) : Prop where
  indexed : l.grammar.Indexed
  scan_after : ∀ {wanted : TokenSet} {p : Place} {x : Lexeme}, l.scan wanted p = some x →
    ∃ n, x.after = p.skip n ∧ (x.token ≠ 0 → 0 < n)
  words : l.words.has 0 = false
  plainWord : l.plainWord ≠ 0

/-! ### Computations that share a workspace -/

section Gives

variable {τ ν α β : Type} {g : Grammar τ ν} {w w' w'' : Workspace}

/-- All states are kept, and what was added is lawful. -/
structure Workspace.Leads (g : Grammar τ ν) (w w' : Workspace) : Prop where
  lawful : w'.automaton.Lawful g
  grows : w.automaton.Grows w'.automaton

theorem Workspace.Leads.trans (h : w.Leads g w') (h' : w'.Leads g w'') :
  w.Leads g w''
  := ⟨h'.lawful, h.grows.trans h'.grows⟩

/-- A computation keeps the states of a workspace, and what it returns is as asked for. -/
def Work.Gives (g : Grammar τ ν) (w : Workspace) (m : Work α) (Q : Automaton → α → Prop) : Prop :=
  w.Leads g (m.run w).2 ∧ Q (m.run w).2.automaton (m.run w).1

namespace Work.Gives

variable {m : Work α} {Q : Automaton → α → Prop} {R : Automaton → β → Prop}

protected theorem pure {x : α} (hw : w.automaton.Lawful g) (hx : Q w.automaton x) :
  Gives g w (pure x) Q
  := ⟨⟨hw, .rfl⟩, hx⟩

protected theorem bind {f : α → Work β} (hm : Gives g w m Q)
    (hf : ∀ x w', w.Leads g w' → Q w'.automaton x → Gives g w' (f x) R) :
  Gives g w (m >>= f) R
  := by
  obtain ⟨leads, hx⟩ := hm
  obtain ⟨leads', hy⟩ := hf _ _ leads hx
  exact ⟨leads.trans leads', hy⟩

theorem mono {Q' : Automaton → α → Prop} (hm : Gives g w m Q) (h : ∀ a x, Q a x → Q' a x) :
  Gives g w m Q'
  := ⟨hm.1, h _ _ hm.2⟩

/-- Looking at a state changes nothing. -/
theorem state_bind {n : Nat} {f : Option State → Work β}
    (h : Gives g w (f (w.automaton.states[n]?)) R) :
  Gives g w (state? n >>= f) R
  := h

/-- A property of what is returned for each member, if it is kept by further states. -/
theorem mapM {f : α → Work β} (kept : ∀ a b y, Automaton.Grows a b → R a y → R b y) {xs : List α}
    (hw : w.automaton.Lawful g)
    (hf : ∀ x ∈ xs, ∀ w', w.Leads g w' → Gives g w' (f x) R) :
  Gives g w (xs.mapM f) fun a ys => ∀ y ∈ ys, R a y
  := by
  induction xs generalizing w with
  | nil => exact .pure hw (by simp)
  | cons x xs ih =>
    obtain ⟨first, others⟩ := List.forall_mem_cons.mp hf
    rw [List.mapM_cons]
    apply (first w ⟨hw, .rfl⟩).bind
    intro y w₁ leads hy
    apply (ih leads.lawful fun x hx w' leads' => others x hx w' (leads.trans leads')).bind
    intro ys w₂ leads' hys
    apply Gives.pure leads'.lawful
    exact List.forall_mem_cons.mpr ⟨kept _ _ _ leads'.grows hy, hys⟩

theorem filterMapM {f : α → Work (Option β)} (kept : ∀ a b y, Automaton.Grows a b → R a y → R b y)
    {xs : List α} (hw : w.automaton.Lawful g)
    (hf : ∀ x ∈ xs, ∀ w', w.Leads g w' → Gives g w' (f x) fun a o => ∀ y ∈ o, R a y) :
  Gives g w (xs.filterMapM f) fun a ys => ∀ y ∈ ys, R a y
  := by
  induction xs generalizing w with
  | nil => exact .pure hw (by simp)
  | cons x xs ih =>
    obtain ⟨first, others⟩ := List.forall_mem_cons.mp hf
    rw [List.filterMapM_cons]
    apply (first w ⟨hw, .rfl⟩).bind
    intro o w₁ leads ho
    have rest := ih leads.lawful fun x hx w' leads' => others x hx w' (leads.trans leads')
    cases o with
    | none => apply rest
    | some y =>
      apply rest.bind
      intro ys w₂ leads' hys
      apply Gives.pure leads'.lawful
      exact List.forall_mem_cons.mpr ⟨kept _ _ _ leads'.grows (ho y rfl), hys⟩

end Work.Gives

end Gives

section Soundness

variable {l : Language} {text : List Char} {start : Nat} {a b : Automaton}

/-! ### Tokens that are found -/

section Tokens

variable {S : Nat → State → Prop} {o stop : Nat} {leaf : Leaf} {leaves : List Leaf}

theorem FoundBy.le (hl : l.Lawful) (h : FoundBy l text S leaf o) :
  o ≤ leaf.stop
  := by
  cases h with
  | token reached scanned =>
    obtain ⟨n, hx, _⟩ := hl.scan_after scanned
    rw [hx]
    apply Nat.le_add_right
  | plain reached scanned word reached' idle =>
    obtain ⟨n, hx, _⟩ := hl.scan_after scanned
    rw [hx]
    apply Nat.le_add_right

theorem FoundBy.lt (hl : l.Lawful) (h : FoundBy l text S leaf o) (ht : leaf.token ≠ 0) :
  o < leaf.stop
  := by
  cases h with
  | token reached scanned =>
    obtain ⟨n, hx, pos⟩ := hl.scan_after scanned
    rw [hx]
    exact Nat.lt_add_of_pos_right (pos ht)
  | @plain _ _ _ x reached scanned word reached' idle =>
    obtain ⟨n, hx, pos⟩ := hl.scan_after scanned
    have notFinish : x.token ≠ 0 := by
      intro h
      rw [h, hl.words] at word
      contradiction
    rw [hx]
    exact Nat.lt_add_of_pos_right (pos notFinish)

/-- A word on which nothing is done is found as a plain name as well. -/
theorem FoundBy.idle (h : FoundBy l text S leaf o) (word : l.words.has leaf.token = true) {q : State}
    (reached : S o q) (idle : (q.choices l.grammar leaf.token).isIdle = true) :
  FoundBy l text S { leaf with token := l.plainWord } o
  := by
  cases h with
  | token found scanned => exact .plain found scanned word reached idle
  | plain found scanned word' reached' idle' => exact .plain found scanned word' reached' idle'

theorem ChainBy.le (hl : l.Lawful) (h : ChainBy l text S o leaves stop) :
  o ≤ stop
  := by
  induction h with
  | nil o => apply Nat.le_refl
  | cons found rest ih => apply Nat.le_trans (found.le hl) ih

/-- Every token of a row is found behind its start. -/
theorem ChainBy.exists_found (hl : l.Lawful) (h : ChainBy l text S o leaves stop)
    (mem : leaf ∈ leaves) :
  ∃ o', o ≤ o' ∧ FoundBy l text S leaf o'
  := by
  induction h with
  | nil o => contradiction
  | @cons o stop first leaves found rest ih =>
    obtain rfl | mem := List.mem_cons.mp mem
    · exact ⟨o, Nat.le_refl o, found⟩
    · obtain ⟨o', le, found'⟩ := ih mem
      exact ⟨o', Nat.le_trans (found.le hl) le, found'⟩

end Tokens

/-! ### States that are reached -/

/-- Nothing leads to the first state, and the items of any other are those behind a symbol. -/
theorem Grammar.Leads.eq_or_exists {τ ν : Type} {g : Grammar τ ν} {symbols : List Symbol} {q : State}
    (h : g.Leads symbols q) :
  (symbols = [] ∧ q = g.startState)
    ∨ (symbols ≠ [] ∧ ∃ q' symbol, q.items = State.itemsBehind g q' symbol)
  := by
  cases h with
  | start => exact .inl ⟨rfl, rfl⟩
  | behind before symbol inhabited => exact .inr ⟨by simp, _, symbol, rfl⟩

/-- What leads to a state occurs in productions. -/
theorem Grammar.Leads.exists_mem {τ ν : Type} {g : Grammar τ ν} (hg : g.Indexed)
    {symbols : List Symbol} {q : State} (h : g.Leads symbols q) {symbol : Symbol}
    (mem : symbol ∈ symbols) :
  ∃ p ∈ g.productions, symbol ∈ p.symbols
  := by
  induction h with
  | start => cases mem
  | @behind symbols q before last inhabited ih =>
    obtain earlier | here := List.mem_append.mp mem
    · apply ih earlier
    · obtain rfl := List.mem_singleton.mp here
      obtain ⟨i, hi⟩ := List.exists_mem_of_ne_nil _ inhabited
      obtain ⟨p, place, hp, -, asked, -⟩ := State.before_of_mem_itemsBehind hg hi
      exact ⟨p, Array.mem_of_getElem? hp, Array.mem_of_getElem? asked⟩

/-- The end of a text does not occur in a derived tree. -/
theorem Derives.token_ne_finish {τ ν : Type} {g : Grammar τ ν} (hg : g.Indexed) {tree : Tree}
    (h : Derives g tree) (inside : tree.symbol ≠ .token 0) :
  ∀ leaf ∈ tree.leaves, leaf.token ≠ 0
  := by
  induction h with
  | leaf token start stop =>
    intro leaf mem
    obtain rfl := List.mem_singleton.mp mem
    rintro rfl
    exact inside rfl
  | @node p place children mem row inhabited derived ih =>
    intro leaf hleaf
    rw [Tree.leaves_ofChildren, Tree.leavesAll_eq_flatMap] at hleaf
    obtain ⟨child, hc, hleaf⟩ := List.mem_flatMap.mp hleaf
    apply ih child hc _ leaf hleaf
    intro finish
    have asked : child.symbol ∈ p.symbols := by
      rw [Array.mem_def, ← row]
      apply List.mem_map_of_mem hc
    rw [finish] at asked
    exact hg.finish p mem asked

namespace Reached

variable {o : Nat} {q : State}

/-- The items of a state inside a text are those of another one behind a symbol. -/
theorem items (h : Reached l text start o q) (later : start < o) :
  ∃ q' symbol, q.items = State.itemsBehind l.grammar q' symbol
  := by
  obtain ⟨trees, derived, tokens, leads⟩ := h
  obtain ⟨none, -⟩ | ⟨-, behind⟩ := leads.eq_or_exists
  · obtain rfl := List.map_eq_nil_iff.mp none
    cases tokens
    exact absurd later (Nat.lt_irrefl _)
  · exact behind

/-- Only the first state is reached at the start of a text. -/
theorem eq_startState (hl : l.Lawful) (h : Reached l text start start q) :
  q = l.grammar.startState
  := by
  obtain ⟨trees, derived, tokens, leads⟩ := h
  cases trees with
  | nil =>
    obtain ⟨-, first⟩ | ⟨some, -⟩ := leads.eq_or_exists
    · exact first
    · exact absurd rfl some
  | cons tree trees =>
    have inside : tree.symbol ≠ .token 0 := by
      intro finish
      obtain ⟨p, hp, asked⟩ := leads.exists_mem hl.indexed List.mem_cons_self
      rw [finish] at asked
      exact hl.indexed.finish p hp asked
    have tree_derived := derived tree List.mem_cons_self
    obtain ⟨leaf, leaves, split⟩ := List.exists_cons_of_ne_nil tree_derived.leaves_ne_nil
    have notFinish := tree_derived.token_ne_finish hl.indexed inside leaf (by simp [split])
    rw [Tree.leavesAll, split, List.cons_append] at tokens
    cases tokens with
    | cons found rest =>
      exact absurd (Nat.lt_of_lt_of_le (found.lt hl notFinish) (rest.le hl)) (Nat.lt_irrefl _)

end Reached

/-! ### Stacks -/

variable (l text start) in
/-- A tree between two states of a stack: the items of the upper state are those of the lower one
behind the tree, and its tokens stand between their offsets. -/
structure Link (a : Automaton) (q : State) (offset : Nat) (tree : Tree) (below : Stack) : Prop where
  derived : Derives l.grammar tree
  tokens : Chain l text start below.offset tree.leaves offset
  behind : ∃ q', a.states[below.state]? = some q' ∧ q.items = q'.itemsBehind l.grammar tree.symbol

variable (l text start) in
/-- At the bottom is the first state at the start of the text, and above it are linked trees. -/
inductive Stack.Sound (a : Automaton) : Stack → Prop where
  | bottom (mark : Nat) : Sound a (.node mark 0 start [])
  | node {mark state offset : Nat} {links : List (Tree × Stack)} {q : State}
      (top : a.states[state]? = some q) (later : start < offset)
      (reached : Reached l text start offset q)
      (linked : ∀ link ∈ links, Link l text start a q offset link.1 link.2)
      (below : ∀ link ∈ links, Sound a link.2) : Sound a (.node mark state offset links)

theorem Link.grows {q : State} {offset : Nat} {tree : Tree} {below : Stack} (grows : a.Grows b)
    (h : Link l text start a q offset tree below) :
  Link l text start b q offset tree below
  := by
  obtain ⟨q', known, items⟩ := h.behind
  exact ⟨h.derived, h.tokens, q', grows _ _ known, items⟩

namespace Stack.Sound

variable {s t : Stack}

theorem grows (grows : a.Grows b) (h : s.Sound l text start a) :
  s.Sound l text start b
  := by
  induction h with
  | bottom mark => apply bottom
  | node top later reached linked below ih =>
    apply node (grows _ _ top) later reached
    · intro link hl
      apply (linked link hl).grows grows
    · exact ih

theorem le_offset (h : s.Sound l text start a) :
  start ≤ s.offset
  := by
  cases h with
  | bottom mark => apply Nat.le_refl
  | node top later reached linked below => apply Nat.le_of_lt later

/-- Nothing was read if a stack is at the start of the text. -/
theorem bottom_of_offset (h : s.Sound l text start a) (atStart : s.offset = start) :
  s.state = 0 ∧ s.links = []
  := by
  cases h with
  | bottom mark => exact ⟨rfl, rfl⟩
  | node top later reached linked below => exact absurd atStart (Nat.ne_of_gt later)

/-- Every stack has a state on top. -/
theorem exists_top (ha : a.Lawful l.grammar) (h : s.Sound l text start a) :
  ∃ q, a.states[s.state]? = some q
  := by
  cases h with
  | bottom mark => exact ⟨_, ha.start⟩
  | @node _ _ _ _ q top later reached linked below => exact ⟨q, top⟩

/-- What lies below a state is linked to it. -/
theorem link (h : s.Sound l text start a) {q : State} (top : a.states[s.state]? = some q)
    {tree : Tree} {below : Stack} (hl : (tree, below) ∈ s.links) :
  Link l text start a q s.offset tree below ∧ below.Sound l text start a ∧ start < s.offset
  := by
  cases h with
  | bottom mark => contradiction
  | node top' later reached linked sound =>
    obtain rfl := Option.some.inj (top.symm.trans top')
    exact ⟨linked _ hl, sound _ hl, later⟩

/-- The state on top is reached where the stack ends. -/
theorem reached (ha : a.Lawful l.grammar) (h : s.Sound l text start a) {q : State}
    (top : a.states[s.state]? = some q) :
  Reached l text start s.offset q
  := by
  cases h with
  | bottom mark =>
    obtain rfl := Option.some.inj (ha.start.symm.trans top)
    exact .atStart
  | node top' later reached linked below =>
    obtain rfl := Option.some.inj (top.symm.trans top')
    exact reached

/-- The state on top is the first one, or its items are those of a state behind a symbol. -/
theorem items (ha : a.Lawful l.grammar) (h : s.Sound l text start a) {q : State}
    (top : a.states[s.state]? = some q) :
  q = l.grammar.startState ∧ s.offset = start
    ∨ start < s.offset ∧ ∃ q' symbol, q.items = State.itemsBehind l.grammar q' symbol
  := by
  cases h with
  | bottom mark => exact .inl ⟨(Option.some.inj (ha.start.symm.trans top)).symm, rfl⟩
  | node top' later reached linked below =>
    obtain rfl := Option.some.inj (top.symm.trans top')
    exact .inr ⟨later, reached.items later⟩

/-! ### Joined stacks -/

/-- Trees and stacks that may lie below a state. -/
def Linked (l : Language) (text : List Char) (start : Nat) (a : Automaton) (q : State) (offset : Nat)
    (links : List (Tree × Stack)) : Prop :=
  ∀ link ∈ links, Link l text start a q offset link.1 link.2 ∧ link.2.Sound l text start a

variable (l text start a) in
/-- Stacks that are compared so deep stay sound when they are joined. -/
structure Joins (fuel : Nat) : Prop where
  merged : ∀ (free : Nat) {s t : Stack}, s.Sound l text start a → t.Sound l text start a →
    s.state = t.state → s.offset = t.offset →
    (Stack.merge fuel free s t).1.Sound l text start a
      ∧ (Stack.merge fuel free s t).1.state = s.state
      ∧ (Stack.merge fuel free s t).1.offset = s.offset
  below : ∀ (free : Nat) {q : State} {offset : Nat} {links more : List (Tree × Stack)},
    Linked l text start a q offset links → Linked l text start a q offset more →
    Linked l text start a q offset (mergeBelow fuel free links more).1
  added : ∀ (free : Nat) {q : State} {offset : Nat} {tree : Tree} {rest : Stack}
    {links : List (Tree × Stack)},
    Linked l text start a q offset [(tree, rest)] → Linked l text start a q offset links →
    Linked l text start a q offset (addBelow fuel free tree rest links).1

namespace Joins

variable {fuel : Nat}

/-- Two stacks with the same state at the same place are joined by what lies below them. -/
theorem merged_succ (h : Joins l text start a fuel) (free : Nat) (hs : s.Sound l text start a)
    (ht : t.Sound l text start a) (states : s.state = t.state) (offsets : s.offset = t.offset) :
  (Stack.merge (fuel + 1) free s t).1.Sound l text start a
  := by
  cases hs with
  | bottom mark =>
    obtain ⟨_, none⟩ := ht.bottom_of_offset offsets.symm
    rw [Stack.merge, none]
    cases fuel <;> exact .bottom _
  | @node mark state offset links q top later reached linked below =>
    cases ht with
    | bottom mark' => exact absurd offsets (Nat.ne_of_gt later)
    | @node mark' state' offset' links' q' top' later' _ linked' below' =>
      obtain rfl : state = state' := states
      obtain rfl : offset = offset' := offsets
      obtain rfl := Option.some.inj (top.symm.trans top')
      have joined := h.below (free + 1) (fun link hl => ⟨linked link hl, below link hl⟩)
        (fun link hl => ⟨linked' link hl, below' link hl⟩)
      exact .node top later reached (fun link hl => (joined link hl).1)
        fun link hl => (joined link hl).2

theorem below_succ (h : Joins l text start a fuel) (free : Nat) {q : State} {offset : Nat}
    {links more : List (Tree × Stack)} (hl : Linked l text start a q offset links)
    (hm : Linked l text start a q offset more) :
  Linked l text start a q offset (mergeBelow (fuel + 1) free links more).1
  := by
  cases more with
  | nil => exact hl
  | cons link more =>
    obtain ⟨first, others⟩ := List.forall_mem_cons.mp hm
    apply h.below _ (h.added _ (by simpa [Linked] using first) hl) others

/-- A stack is joined with the first one that is in the same state at the same place, below a tree
that resembles its own. -/
theorem added_succ (h : Joins l text start a fuel) (free : Nat) {q : State} {offset : Nat}
    {tree : Tree} {rest : Stack} {links : List (Tree × Stack)}
    (hr : Linked l text start a q offset [(tree, rest)]) (hl : Linked l text start a q offset links) :
  Linked l text start a q offset (addBelow (fuel + 1) free tree rest links).1
  := by
  cases links with
  | nil => exact hr
  | cons link links =>
    obtain ⟨known, other⟩ := link
    obtain ⟨⟨first, sound⟩, others⟩ := List.forall_mem_cons.mp hl
    obtain ⟨_, soundRest⟩ := List.forall_mem_singleton.mp hr
    rw [addBelow]
    split
    · exact hl
    · split
      · next same =>
        simp only [Bool.and_eq_true, beq_iff_eq] at same
        obtain ⟨⟨_, states⟩, offsets⟩ := same
        obtain ⟨joined, state, place⟩ := h.merged free sound soundRest states.symm offsets.symm
        have link : Link l text start a q offset known (Stack.merge fuel free other rest).1 :=
          ⟨first.derived, place ▸ first.tokens, state ▸ first.behind⟩
        exact List.forall_mem_cons.mpr ⟨⟨link, joined⟩, others⟩
      · exact List.forall_mem_cons.mpr ⟨⟨first, sound⟩, h.added free hr others⟩

end Joins

/-- Joining keeps stacks sound, however deep they are compared. The parts of joining call each other
with less fuel, so they are treated together. -/
theorem joins (fuel : Nat) :
  Joins l text start a fuel
  := by
  induction fuel with
  | zero =>
    constructor
    · intro free s t hs _ _ _
      exact ⟨hs, rfl, rfl⟩
    · intro free q offset links more hl hm
      exact List.forall_mem_append.mpr ⟨hl, hm⟩
    · intro free q offset tree rest links hr hl
      exact List.forall_mem_append.mpr ⟨hl, hr⟩
  | succ fuel ih =>
    constructor
    · intro free s t hs ht states offsets
      exact ⟨ih.merged_succ free hs ht states offsets, rfl, rfl⟩
    · apply ih.below_succ
    · apply ih.added_succ

theorem merge (hs : s.Sound l text start a) (ht : t.Sound l text start a)
    (states : s.state = t.state) (offsets : s.offset = t.offset) (fuel free : Nat) :
  (Stack.merge fuel free s t).1.Sound l text start a
    ∧ (Stack.merge fuel free s t).1.offset = s.offset
  := by
  obtain ⟨sound, _, offset⟩ := (joins fuel).merged free hs ht states offsets
  exact ⟨sound, offset⟩

/-! ### What a complete item tells -/

/-- The trees on top of a stack, as far as an item is read, are those that its production asks
for. -/
theorem pop (hl : l.Lawful) {n : Nat} {p : Production}
    (hp : l.grammar.productions[n]? = some p) {count : Nat} {taken : List Tree} {s : Stack}
    (hs : s.Sound l text start a)
    (item : 0 < count → ∃ q i, a.states[s.state]? = some q ∧ i ∈ q.items ∧ i.production = n
      ∧ i.place = count)
    {trees : List Tree} {base : Stack} (way : (trees, base) ∈ s.pop count taken) :
  base.Sound l text start a ∧ ∃ popped, trees = popped ++ taken
    ∧ popped.map Tree.symbol = p.symbols.toList.take count
    ∧ (∀ tree ∈ popped, Derives l.grammar tree)
    ∧ Chain l text start base.offset (Tree.leavesAll popped) s.offset
  := by
  induction count generalizing s taken with
  | zero =>
    obtain ⟨rfl, rfl⟩ := Prod.mk.inj (List.mem_singleton.mp way)
    exact ⟨hs, [], rfl, rfl, by simp, .nil _⟩
  | succ count ih =>
    obtain ⟨⟨tree, rest⟩, hlink, way⟩ := List.mem_flatMap.mp way
    obtain ⟨q, i, top, hi, rfl, place⟩ := item (Nat.succ_pos count)
    obtain ⟨link, soundRest, _⟩ := hs.link top hlink
    obtain ⟨q', top', items⟩ := link.behind
    rw [items] at hi
    obtain ⟨p', _, hp', place', symbol, before⟩ := State.before_of_mem_itemsBehind hl.indexed hi
    obtain rfl := Option.some.inj (hp.symm.trans hp')
    obtain rfl := Nat.succ.inj (place.symm.trans place')
    have item' : 0 < count → ∃ q j, a.states[rest.state]? = some q ∧ j ∈ q.items
        ∧ j.production = i.production ∧ j.place = count := by
      intro pos
      obtain ⟨j, hj, same, there⟩ := before pos
      exact ⟨q', j, top', hj, same, there⟩
    obtain ⟨soundBase, popped, rfl, row, derived, tokens⟩ := ih soundRest item' way
    refine ⟨soundBase, popped ++ [tree], by simp, ?_, ?_, ?_⟩
    · rw [List.map_append, row, List.take_add_one]
      simp [symbol]
    · exact List.forall_mem_append.mpr ⟨derived, by simpa using link.derived⟩
    · rw [Tree.leavesAll_append]
      apply tokens.append
      simpa [Tree.leavesAll] using link.tokens

end Stack.Sound

theorem mem_of_mem_firstEach {seen : List Nat} {ways : List (List Tree × Stack)}
    {way : List Tree × Stack} (h : way ∈ Stack.firstEach seen ways) :
  way ∈ ways
  := by
  induction ways generalizing seen with
  | nil => contradiction
  | cons first ways ih =>
    obtain ⟨trees, s⟩ := first
    rw [Stack.firstEach] at h
    split at h
    · exact List.mem_cons_of_mem _ (ih h)
    · obtain rfl | h := List.mem_cons.mp h
      · apply List.mem_cons_self
      · exact List.mem_cons_of_mem _ (ih h)

/-- A complete item behind a symbol is read up to the end of its production. -/
theorem State.place_of_mem_itemsBehind {τ ν : Type} {g : Grammar τ ν} (hg : g.Indexed) {q : State}
    {symbol : Symbol} {i : Item} (hi : i ∈ q.itemsBehind g symbol) (complete : i.next? g = none) :
  ∃ p, g.productions[i.production]? = some p ∧ i.place = p.symbols.size ∧ 0 < i.place
  := by
  obtain ⟨p, place, hp, hplace, symbol, _⟩ := before_of_mem_itemsBehind hg hi
  have before := (Array.getElem?_eq_some_iff.mp symbol).1
  rw [Item.next?, Item.production?, hp, Option.bind_some, Array.getElem?_eq_none_iff] at complete
  exact ⟨p, hp, by omega, by omega⟩

/-- A complete item on a sound stack is read up to the end of its production. -/
theorem Stack.Sound.complete_item (hl : l.Lawful) (ha : a.Lawful l.grammar) {s : Stack}
    (hs : s.Sound l text start a) {q : State} (top : a.states[s.state]? = some q) {i : Item}
    (hi : i ∈ q.items) (complete : i.next? l.grammar = none) {p : Production}
    (hp : l.grammar.productions[i.production]? = some p) :
  start < s.offset ∧ i.place = p.symbols.size ∧ 0 < i.place
  := by
  obtain ⟨rfl, _⟩ | ⟨later, q', symbol, items⟩ := hs.items ha top
  · obtain rfl := List.mem_singleton.mp hi
    obtain ⟨whole, hw, row, _⟩ := hl.indexed.whole
    rw [Item.next?, Item.production?, Grammar.startItem, hw, Option.bind_some, row] at complete
    contradiction
  · rw [items] at hi
    obtain ⟨p', hp', place, pos⟩ := State.place_of_mem_itemsBehind hl.indexed hi complete
    obtain rfl := Option.some.inj (hp.symm.trans hp')
    exact ⟨later, place, pos⟩

/-! ### Moving -/

variable (l text start) in
/-- A stack that ends at an offset. -/
def Reaches (offset : Nat) (a : Automaton) (s : Stack) : Prop :=
  s.Sound l text start a ∧ s.offset = offset

theorem Reaches.grows {offset : Nat} (a b : Automaton) (s : Stack) (grows : a.Grows b)
    (h : Reaches l text start offset a s) :
  Reaches l text start offset b s
  := ⟨h.1.grows grows, h.2⟩

theorem Work.run_advance {τ ν : Type} (g : Grammar τ ν) (s : Stack) (offset : Nat) (symbol : Symbol)
    (tree : Tree) (w : Workspace) :
  (advance g s offset symbol tree).run w
    = match w.automaton.move g s.state symbol with
      | (some n, a) => (some (.node w.free n offset [(tree, s)]), ⟨a, w.free + 1⟩)
      | (none, a) => (none, ⟨a, w.free⟩)
  := by
  cases h : w.automaton.move g s.state symbol with
  | mk next a =>
    cases next <;> simp [advance, push, h] <;> rfl

/-- A derived tree whose tokens stand behind a stack is put on it. -/
theorem advance_gives {w : Workspace} (hw : w.automaton.Lawful l.grammar) {s : Stack}
    (hs : s.Sound l text start w.automaton) {offset : Nat} {tree : Tree}
    (derived : Derives l.grammar tree) (tokens : Chain l text start s.offset tree.leaves offset)
    (later : start < offset) :
  Work.Gives l.grammar w (Work.advance l.grammar s offset tree.symbol tree)
    fun a o => ∀ s' ∈ o, Reaches l text start offset a s'
  := by
  obtain ⟨lawful, grows, moved⟩ := Automaton.move_spec hw s.state tree.symbol
  rw [Work.Gives, Work.run_advance]
  cases h : w.automaton.move l.grammar s.state tree.symbol with
  | mk next a =>
    rw [h] at lawful grows moved
    cases next with
    | none => exact ⟨⟨lawful, grows⟩, nofun⟩
    | some n =>
      refine ⟨⟨lawful, grows⟩, ?_⟩
      rintro _ ⟨⟩
      obtain ⟨q, q', below, top, items, inhabited⟩ := moved n rfl
      have link : Link l text start a q' offset tree s :=
        ⟨derived, tokens, q, grows _ _ below, items⟩
      have reached : Reached l text start offset q' := by
        rw [lawful.made n q' top, items, ← State.behind]
        apply (hs.reached hw below).behind derived tokens
        rw [← items]
        exact inhabited
      refine ⟨.node top later reached ?_ ?_, rfl⟩
      · simpa using link
      · simpa using hs.grows grows

/-- Ending the production of a complete item puts one derived tree in the place of its parts. -/
theorem finish_gives (hl : l.Lawful) {w : Workspace} (hw : w.automaton.Lawful l.grammar) {s : Stack}
    (hs : s.Sound l text start w.automaton) {q : State} (top : w.automaton.states[s.state]? = some q)
    {t n : Nat} (ended : n ∈ (q.choices l.grammar t).ended) :
  Work.Gives l.grammar w (Work.finish l.grammar s n)
    fun a ss => ∀ s' ∈ ss, Reaches l text start s.offset a s'
  := by
  unfold Work.finish
  split
  · exact .pure hw (by simp)
  · next p hp =>
    apply Work.Gives.filterMapM Reaches.grows hw
    rintro ⟨trees, base⟩ way w' leads
    obtain ⟨i, hi, rfl⟩ := State.mem_ended ended
    obtain ⟨hi, complete, _⟩ := State.mem_complete.mp hi
    obtain ⟨later, place, pos⟩ := hs.complete_item hl hw top hi complete hp
    have item : 0 < p.symbols.size → ∃ q j, w.automaton.states[s.state]? = some q ∧ j ∈ q.items
        ∧ j.production = i.production ∧ j.place = p.symbols.size :=
      fun _ => ⟨q, i, top, hi, rfl, place⟩
    obtain ⟨soundBase, popped, rfl, row, derived, tokens⟩ :=
      hs.pop hl hp item (mem_of_mem_firstEach way)
    rw [List.append_nil] at *
    rw [← Array.length_toList, List.take_length] at row
    have inhabited : popped ≠ [] := by
      rintro rfl
      rw [List.map_nil] at row
      rw [place, ← Array.length_toList, ← row] at pos
      contradiction
    apply advance_gives leads.lawful (soundBase.grows leads.grows)
      (.node _ (Array.mem_of_getElem? hp) row inhabited derived) _ later
    rw [Tree.leaves_ofChildren]
    apply tokens

/-- Below a tree on which a text is accepted there is nothing else. -/
theorem Stack.Sound.reading (hl : l.Lawful) (ha : a.Lawful l.grammar) {s : Stack}
    (hs : s.Sound l text start a) {q : State} (top : a.states[s.state]? = some q) {leaf : Leaf}
    (found : Found l text start s.offset leaf)
    (accepts : (q.choices l.grammar leaf.token).accepts = true) {tree : Tree}
    (ht : tree ∈ s.links.map Prod.fst) :
  Reading l text start tree
  := by
  obtain ⟨⟨tree, below⟩, hlink, rfl⟩ := List.mem_map.mp ht
  obtain ⟨link, soundBelow, _⟩ := hs.link top hlink
  obtain ⟨q', top', items⟩ := link.behind
  obtain ⟨i, hi, whole⟩ := State.accepts_choices.mp accepts
  obtain ⟨hi, complete, follow⟩ := State.mem_complete.mp hi
  obtain ⟨p, hp, row, _⟩ := hl.indexed.whole
  rw [← whole] at hp
  obtain ⟨_, place, _⟩ := hs.complete_item hl ha top hi complete hp
  rw [row] at place
  rw [items] at hi
  obtain ⟨p', k, hp', hk, symbol, _⟩ := State.before_of_mem_itemsBehind hl.indexed hi
  obtain rfl := Option.some.inj (hp.symm.trans hp')
  obtain rfl : k = 0 := Nat.succ.inj (hk.symm.trans place)
  rw [ha.made _ _ top'] at hi
  obtain ⟨j, hj, _, before, same⟩ := State.whole_of_mem_itemsBehind hl.indexed hi whole
  obtain ⟨rfl, atStart⟩ | ⟨_, q₁, symbol₁, items₁⟩ := soundBelow.items ha top'
  · obtain rfl := List.mem_singleton.mp hj
    rw [same, Grammar.startItem, TokenSet.has_single, decide_eq_true_eq] at follow
    rw [row] at symbol
    exact ⟨link.derived, (Option.some.inj symbol).symm, s.offset, atStart ▸ link.tokens, leaf, found,
      follow⟩
  · rw [items₁] at hj
    obtain ⟨_, k, _, hk, _⟩ := State.before_of_mem_itemsBehind hl.indexed hj
    omega

/-! ### Versions -/

variable (l text start) in
/-- A version has a sound stack and goes on where that ends. -/
structure Version.Sound (a : Automaton) (v : Version) : Prop where
  stack : v.stack.Sound l text start a
  place : v.place = .inText text v.stack.offset

theorem Version.Sound.grows (a b : Automaton) (v : Version) (grows : a.Grows b)
    (h : v.Sound l text start a) :
  v.Sound l text start b
  := ⟨h.stack.grows grows, h.place⟩

variable (l text start) in
/-- All of several versions are sound. -/
def AllSound (a : Automaton) (vs : List Version) : Prop :=
  ∀ v ∈ vs, v.Sound l text start a

theorem AllSound.grows {vs : List Version} (grows : a.Grows b) (h : AllSound l text start a vs) :
  AllSound l text start b vs
  := fun v hv => (h v hv).grows _ _ _ grows

theorem AllSound.append {us vs : List Version} (hu : AllSound l text start a us)
    (hv : AllSound l text start a vs) :
  AllSound l text start a (us ++ vs)
  := List.forall_mem_append.mpr ⟨hu, hv⟩

/-- Stacks on which productions were ended, at the place of a version. -/
theorem Version.Sound.ended {v : Version} (hv : v.Sound l text start a) {ss : List Stack}
    (h : ∀ s ∈ ss, Reaches l text start v.stack.offset b s) :
  AllSound l text start b (ss.map fun s => { v with stack := s })
  := by
  intro u hu
  obtain ⟨s, hs, rfl⟩ := List.mem_map.mp hu
  obtain ⟨sound, offset⟩ := h s hs
  refine ⟨sound, ?_⟩
  rw [offset]
  exact hv.place

theorem enqueue_gives {w : Workspace} (hw : w.automaton.Lawful l.grammar) {v : Version}
    (hv : v.Sound l text start w.automaton) {us : List Version}
    (hu : AllSound l text start w.automaton us) :
  Work.Gives l.grammar w (Work.enqueue v us) (AllSound l text start)
  := by
  induction us with
  | nil => exact .pure hw (by simpa [AllSound] using hv)
  | cons u us ih =>
    obtain ⟨first, others⟩ := List.forall_mem_cons.mp hu
    unfold Work.enqueue
    split
    · next same =>
      simp only [Bool.and_eq_true, beq_iff_eq, first.place, hv.place] at same
      obtain ⟨joined, offset⟩ := first.stack.merge hv.stack same.1 same.2 Work.mergeDepth
        w.free
      have sound : Version.Sound l text start w.automaton
          { u with stack := (Stack.merge Work.mergeDepth w.free u.stack v.stack).1 } :=
        ⟨joined, by rw [offset, first.place]⟩
      exact ⟨⟨hw, .rfl⟩, List.forall_mem_cons.mpr ⟨sound, others⟩⟩
    · apply (ih others).bind
      intro us' w' leads hus
      exact .pure leads.lawful (List.forall_mem_cons.mpr ⟨first.grows _ _ _ leads.grows, hus⟩)

theorem enqueueAll_gives {w : Workspace} (hw : w.automaton.Lawful l.grammar) {vs us : List Version}
    (hv : AllSound l text start w.automaton vs) (hu : AllSound l text start w.automaton us) :
  Work.Gives l.grammar w (Work.enqueueAll vs us) (AllSound l text start)
  := by
  unfold Work.enqueueAll
  induction vs generalizing us w with
  | nil => exact .pure hw hu
  | cons v vs ih =>
    obtain ⟨first, others⟩ := List.forall_mem_cons.mp hv
    rw [List.foldlM_cons]
    apply (enqueue_gives hw first hu).bind
    intro us' w' leads hus
    apply ih leads.lawful (AllSound.grows leads.grows others) hus

/-! ### Steps and rounds -/

variable (l text start) in
/-- A version that moved is sound, and what is accepted are readings of the text. -/
def Step.Sound (a : Automaton) : Step → Prop
  | .moved v => v.Sound l text start a
  | .stuck => True
  | .accepted trees => ∀ tree ∈ trees, Reading l text start tree

variable (l text start) in
/-- A token that is found from an offset on, with the place behind it in the text. -/
structure Lexeme.Found (o : Nat) (x : Lexeme) : Prop where
  found : Parsing.Found l text start o ⟨x.token, x.start, x.after.offset⟩
  after : x.after = .inText text x.after.offset

theorem scan_gives (hl : l.Lawful) (ha : a.Lawful l.grammar) {v : Version}
    (hv : v.Sound l text start a) {q : State} (top : a.states[v.stack.state]? = some q)
    {known : Option Lexeme} (hk : ∀ x ∈ known, x.Found l text start v.stack.offset) {x : Lexeme}
    (hx : (known <|> l.scan q.possible v.place) = some x) :
  x.Found l text start v.stack.offset
  := by
  cases known with
  | some y =>
    obtain rfl := Option.some.inj hx
    exact hk y rfl
  | none =>
    have scanned : l.scan q.possible (.inText text v.stack.offset) = some x := hv.place ▸ hx
    obtain ⟨n, after, _⟩ := hl.scan_after scanned
    constructor
    · apply FoundBy.token (hv.stack.reached ha top) scanned
    · rw [after, Place.skip_inText]
      rfl

/-- All productions that may be ended before a token are ended. -/
theorem mapM_finish_gives (hl : l.Lawful) {w : Workspace} (hw : w.automaton.Lawful l.grammar)
    {s : Stack} (hs : s.Sound l text start w.automaton) {q : State}
    (top : w.automaton.states[s.state]? = some q) (t : Nat) :
  Work.Gives l.grammar w ((q.choices l.grammar t).ended.mapM (Work.finish l.grammar s))
    fun a sss => ∀ ss ∈ sss, ∀ s' ∈ ss, Reaches l text start s.offset a s'
  := by
  apply Work.Gives.mapM _ hw
  · intro n ended w' leads
    apply finish_gives hl leads.lawful (hs.grows leads.grows) (leads.grows _ _ top) ended
  · intro a b ss grows h s' hs'
    apply (h s' hs').grows _ _ _ grows

/-- Reading a token that was found moves a version behind it. -/
theorem read_gives (hl : l.Lawful) {w : Workspace} (hw : w.automaton.Lawful l.grammar) {s : Stack}
    (hs : s.Sound l text start w.automaton) {q : State} (top : w.automaton.states[s.state]? = some q)
    {x : Lexeme} (hx : x.Found l text start s.offset)
    (reads : (q.choices l.grammar x.token).reads = true) :
  Work.Gives l.grammar w
    (Work.advance l.grammar s x.after.offset (.token x.token) (.leaf x.token x.start x.after.offset))
    fun a o => ∀ s' ∈ o, Version.Sound l text start a ⟨s', x.after⟩
  := by
  have lt := hx.found.lt hl (State.ne_finish_of_reads hl.indexed (hw.made _ _ top) reads)
  have moved := advance_gives hw hs (.leaf x.token x.start x.after.offset)
    (.cons hx.found (.nil _)) (Nat.lt_of_le_of_lt hs.le_offset lt)
  apply moved.mono
  intro a o reaches s' hs'
  obtain ⟨sound, offset⟩ := reaches s' hs'
  refine ⟨sound, ?_⟩
  rw [offset]
  exact hx.after

/-- A word on which a version does nothing is found as a plain name. -/
theorem Lexeme.Found.idle (ha : a.Lawful l.grammar) {s : Stack} (hs : s.Sound l text start a)
    {q : State} (top : a.states[s.state]? = some q) {x : Lexeme}
    (hx : x.Found l text start s.offset) (word : l.words.has x.token = true)
    (idle : (q.choices l.grammar x.token).isIdle = true) :
  Lexeme.Found l text start s.offset { x with token := l.plainWord }
  := by
  exact ⟨hx.found.idle word (hs.reached ha top) idle, hx.after⟩

theorem mem_of_getLast?_getD {α : Type} {rows : List (List α)} {x : α} {row : List α}
    (last : rows.getLast?.getD [] = x :: row) :
  x :: row ∈ rows
  := by
  cases h : rows.getLast? with
  | none => simp [h] at last
  | some found =>
    obtain rfl : found = x :: row := by simpa [h] using last
    exact List.mem_of_getLast? h

/-- Moving over one token keeps versions sound. A word on which nothing is done is tried once more
as a plain name, and of several stacks one goes on while the others become versions. -/
theorem step_gives (hl : l.Lawful) (fuel : Nat) {w : Workspace}
    (hw : w.automaton.Lawful l.grammar) {v : Version} (hv : v.Sound l text start w.automaton)
    {known : Option Lexeme} (hk : ∀ x ∈ known, x.Found l text start v.stack.offset)
    {others : List Version} (ho : AllSound l text start w.automaton others) :
  Work.Gives l.grammar w (l.step fuel v known others)
    fun a r => r.1.Sound l text start a ∧ AllSound l text start a r.2
  := by
  induction fuel generalizing w v known others with
  | zero => exact .pure hw ⟨trivial, ho⟩
  | succ fuel ih =>
    unfold Language.step
    apply Work.Gives.state_bind
    obtain ⟨q, top⟩ := hv.stack.exists_top hw
    rw [top]
    simp only
    split
    · next x hx =>
      have found := scan_gives hl hw hv top hk hx
      have ended := mapM_finish_gives hl hw hv.stack top x.token
      split
      · next accepts =>
        apply Work.Gives.pure hw
        exact ⟨fun tree ht => hv.stack.reading hl hw top found.found accepts ht, ho⟩
      · next notAccepts =>
        split
        · next reads =>
          apply ended.bind
          intro ended w₁ leads reach
          have more := hv.ended (List.forall_mem_flatten.mpr reach)
          have others' := (ho.grows leads.grows).append more
          apply (read_gives hl leads.lawful (hv.stack.grows leads.grows) (leads.grows _ _ top) found
            reads).bind
          intro o w₂ leads' moved
          cases o with
          | none => exact .pure leads'.lawful ⟨trivial, others'.grows leads'.grows⟩
          | some s => exact .pure leads'.lawful ⟨moved s rfl, others'.grows leads'.grows⟩
        · next notReads =>
          split
          · next notEnded =>
            split
            · next word =>
              apply ih hw hv _ ho
              rintro _ ⟨⟩
              apply found.idle hw hv.stack top (Bool.and_eq_true_iff.mp word).1
              simp [State.Choices.isIdle, notAccepts, notReads, notEnded]
            · exact .pure hw ⟨trivial, ho⟩
          · apply ended.bind
            intro ended w₁ leads reach
            split
            · exact .pure leads.lawful ⟨trivial, ho.grows leads.grows⟩
            · next main more last =>
              have hlast := mem_of_getLast?_getD last
              obtain ⟨first, others'⟩ := List.forall_mem_cons.mp (reach _ hlast)
              have before : ∀ s ∈ ended.dropLast.flatten ++ more,
                  Reaches l text start v.stack.offset w₁.automaton s :=
                List.forall_mem_append.mpr ⟨List.forall_mem_flatten.mpr fun ss hss =>
                  reach ss (List.dropLast_subset _ hss), others'⟩
              apply ih leads.lawful _ _ ((ho.grows leads.grows).append (hv.ended before))
              · exact hv.ended (reach _ hlast) _ List.mem_cons_self
              · rintro _ ⟨⟩
                exact first.2 ▸ found
    · exact .pure hw ⟨trivial, ho⟩

variable (l text start) in
/-- The versions of a round are sound, and what was accepted are readings of the text. -/
structure Language.Round.Sound (a : Automaton) (r : Language.Round) : Prop where
  versions : AllSound l text start a r.versions
  accepted : ∀ tree ∈ r.accepted, Reading l text start tree

theorem round_gives (hl : l.Lawful) (offset stepFuel fuel : Nat) {w : Workspace}
    (hw : w.automaton.Lawful l.grammar) {vs : List Version}
    (hv : AllSound l text start w.automaton vs) {r : Language.Round}
    (hr : r.Sound l text start w.automaton) :
  Work.Gives l.grammar w (l.round offset stepFuel fuel vs r) (Language.Round.Sound l text start)
  := by
  induction fuel generalizing w vs r with
  | zero => exact .pure hw hr
  | succ fuel ih =>
    cases vs with
    | nil => exact .pure hw hr
    | cons v vs =>
      obtain ⟨first, others⟩ := List.forall_mem_cons.mp hv
      unfold Language.round
      split
      · apply (enqueue_gives hw first hr.versions).bind
        intro us w' leads hus
        exact ih leads.lawful (AllSound.grows leads.grows others) ⟨hus, hr.accepted⟩
      · apply (step_gives hl stepFuel hw first (by simp) (by simp [AllSound])).bind
        rintro ⟨result, more⟩ w₁ leads₁ ⟨step, hm⟩
        apply (enqueueAll_gives leads₁.lawful hm (AllSound.grows leads₁.grows others)).bind
        intro vs' w₂ leads₂ hvs
        have versions := hr.versions.grows (leads₁.trans leads₂).grows
        cases result with
        | moved v =>
          apply (enqueue_gives leads₂.lawful (step.grows _ _ _ leads₂.grows) versions).bind
          intro us w₃ leads₃ hus
          exact ih leads₃.lawful (hvs.grows leads₃.grows) ⟨hus, hr.accepted⟩
        | stuck => exact ih leads₂.lawful hvs ⟨versions, hr.accepted⟩
        | accepted trees =>
          exact ih leads₂.lawful hvs
            ⟨versions, List.forall_mem_append.mpr ⟨hr.accepted, step⟩⟩

theorem run_gives (hl : l.Lawful) (stepFuel fuel : Nat) {w : Workspace}
    (hw : w.automaton.Lawful l.grammar) {vs : List Version}
    (hv : AllSound l text start w.automaton vs) {accepted : List Tree}
    (ha : ∀ tree ∈ accepted, Reading l text start tree) :
  Work.Gives l.grammar w (l.run stepFuel fuel vs accepted)
    fun _ trees => ∀ tree ∈ trees, Reading l text start tree
  := by
  induction fuel generalizing w vs accepted with
  | zero => exact .pure hw ha
  | succ fuel ih =>
    cases vs with
    | nil => exact .pure hw ha
    | cons v vs =>
      unfold Language.run
      apply (round_gives hl _ stepFuel stepFuel hw hv ⟨by simp [AllSound], by simp⟩).bind
      intro r w' leads hr
      exact ih leads.lawful hr.versions (List.forall_mem_append.mpr ⟨ha, hr.accepted⟩)

/-- What is read from a text are readings of it. -/
theorem Language.reading_of_mem_read (hl : l.Lawful) {tree : Tree}
    (h : tree ∈ l.read start (text.drop start)) :
  Reading l text start tree
  := by
  have first : AllSound l text start l.workspace.automaton
      [firstVersion (text.drop start) start] := by
    intro v hv
    obtain rfl := List.mem_singleton.mp hv
    exact ⟨.bottom 0, rfl⟩
  have lawful := Automaton.start_lawful l.grammar
  exact (run_gives hl _ _ lawful first (by simp)).2 tree h

end Soundness

end SourceAtlas.Parsing
