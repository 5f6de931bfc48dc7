import SourceAtlas.Proofs.Java.Language

/-!
# Tokens and phrases

What a form of the grammar stands for, told by the tokens and phrases that it is made of: a tree of a
phrase has trees for what the form of the phrase asks for, in their order (`Parsed.spelled`). The
rules that only hold others go when a tree is unwrapped, and with them the repetitions
(`unwrap_wrapper`, `unwrap_repeats`).
-/

namespace SourceAtlas.Java

open Parsing
open Parsing.Grammar (Numbering)

/-- A token of a text that is the given terminal. -/
structure Token (t : Terminal) where
  start : Nat
  stop : Nat

namespace Token

variable {t : Terminal}

/-- The token with its number. -/
def leaf (x : Token t) : Leaf :=
  ⟨tokenNumber t, x.start, x.stop⟩

/-- The tree of the token alone. -/
def tree (x : Token t) : Tree :=
  .leaf (tokenNumber t) x.start x.stop

end Token

/-- A part of a text that was read as the given phrase. -/
structure Parsed (p : Phrase) where
  tree : Tree
  derived : Derives grammar tree
  symbol : tree.symbol = .rule (ruleNumber p)

/-- The trees are what a form stands for, and all of them are derived. -/
def Spelled (form : Form) (trees : List Tree) : Prop :=
  form.Spells numbering trees ∧ ∀ tree ∈ trees, Derives grammar tree

/-! ### Forms -/

section Spelled

variable {trees : List Tree}

theorem spelled_token {t : Terminal} :
  Spelled (.token t) trees ↔ ∃ x : Token t, trees = [x.tree]
  := by
  constructor
  · rintro ⟨⟨tree, rfl, symbol⟩, _⟩
    cases tree with
    | leaf token start stop =>
      obtain rfl : token = tokenNumber t := by
        rw [tokenNumber_eq]
        exact Symbol.token.inj symbol
      exact ⟨⟨start, stop⟩, rfl⟩
    | node => contradiction
  · rintro ⟨x, rfl⟩
    refine ⟨⟨x.tree, rfl, ?_⟩, ?_⟩
    · rw [Numbering.symbol, ← tokenNumber_eq]
      rfl
    · rw [List.forall_mem_singleton]
      apply Derives.leaf

theorem spelled_named {p : Phrase} :
  Spelled (.named p) trees ↔ ∃ x : Parsed p, trees = [x.tree]
  := by
  constructor
  · rintro ⟨⟨tree, rfl, symbol⟩, derived⟩
    rw [Numbering.symbol, ← ruleNumber_eq] at symbol
    exact ⟨⟨tree, derived tree List.mem_cons_self, symbol⟩, rfl⟩
  · rintro ⟨x, rfl⟩
    refine ⟨⟨x.tree, rfl, ?_⟩, ?_⟩
    · rw [Numbering.symbol, ← ruleNumber_eq, x.symbol]
    · simpa using x.derived

theorem spelled_nil :
  Spelled (.seq []) trees ↔ trees = []
  := by
  constructor
  · rintro ⟨rfl, _⟩
    rfl
  · rintro rfl
    exact ⟨rfl, by simp⟩

theorem spelled_cons {form : Form} {forms : List Form} :
  Spelled (.seq (form :: forms)) trees
    ↔ ∃ first rest, Spelled form first ∧ Spelled (.seq forms) rest ∧ trees = first ++ rest
  := by
  constructor
  · rintro ⟨⟨first, rest, rfl, spells, spellRest⟩, derived⟩
    obtain ⟨derivedFirst, derivedRest⟩ := List.forall_mem_append.mp derived
    exact ⟨first, rest, ⟨spells, derivedFirst⟩, ⟨spellRest, derivedRest⟩, rfl⟩
  · rintro ⟨first, rest, ⟨spells, derivedFirst⟩, ⟨spellRest, derivedRest⟩, rfl⟩
    exact ⟨⟨first, rest, rfl, spells, spellRest⟩,
      List.forall_mem_append.mpr ⟨derivedFirst, derivedRest⟩⟩

theorem spelled_none :
  ¬ Spelled (.choice []) trees
  := fun h => h.1

theorem spelled_one {form : Form} {forms : List Form} :
  Spelled (.choice (form :: forms)) trees ↔ Spelled form trees ∨ Spelled (.choice forms) trees
  := by
  constructor
  · rintro ⟨spells | spells, derived⟩
    · exact .inl ⟨spells, derived⟩
    · exact .inr ⟨spells, derived⟩
  · rintro (⟨spells, derived⟩ | ⟨spells, derived⟩)
    · exact ⟨.inl spells, derived⟩
    · exact ⟨.inr spells, derived⟩

theorem spelled_ranked {rank : Int} {side : Option Side} {form : Form} :
  Spelled (.ranked rank side form) trees ↔ Spelled form trees
  := Iff.rfl

theorem spelled_opt {form : Form} :
  Spelled (.opt form) trees ↔ Spelled form trees ∨ trees = []
  := by
  rw [Rule.opt, spelled_one, spelled_one, spelled_nil]
  simp [spelled_none]

/-- A phrase that may be left out. -/
theorem spelled_optional {p : Phrase} :
  Spelled (.opt (.named p)) trees ↔ ∃ x : Option (Parsed p), trees = x.toList.map Parsed.tree
  := by
  rw [spelled_opt, spelled_named]
  constructor
  · rintro (⟨x, rfl⟩ | rfl)
    · exact ⟨some x, rfl⟩
    · exact ⟨none, rfl⟩
  · rintro ⟨_ | x, rfl⟩
    · exact .inr rfl
    · exact .inl ⟨x, rfl⟩

/-- The children of a phrase are what its form stands for. -/
theorem Parsed.spelled {p : Phrase} (x : Parsed p) :
  Spelled p.form x.tree.children
  := by
  have derived := x.derived
  have symbol := x.symbol
  rw [grammar_eq] at derived
  rw [ruleNumber_eq, numbering_eq] at symbol
  rw [Spelled, numbering_eq, grammar_eq]
  apply derived.spells sensible (mem_rules p) symbol

/-- A repeated form stands for rows of trees, one after the other. -/
theorem spelled_many1 {form : Form} (known : form ∈ numbering.repeated)
    (h : Spelled (.many1 form) trees) :
  ∃ tree rows, trees = [tree] ∧ Repeats (numbering.symbol (.repeated form)) tree rows ∧ rows ≠ []
    ∧ ∀ row ∈ rows, Spelled form row
  := by
  obtain ⟨⟨tree, rfl, symbol⟩, derived⟩ := h
  refine ⟨tree, ?_⟩
  have derived := derived tree List.mem_cons_self
  unfold Spelled
  rw [numbering_eq] at known symbol ⊢
  rw [grammar_eq] at derived ⊢
  obtain ⟨rows, repeats, inhabited, spelled⟩ := derived.repeats sensible known symbol
  exact ⟨rows, rfl, repeats, inhabited, spelled⟩

/-- A form is repeated in the language if it is repeated in the form of a phrase. -/
theorem mem_repeated {form : Form} (p : Phrase) (h : form ∈ p.form.repetitions) :
  form ∈ numbering.repeated
  := by
  have known : (Numbering.ofRules .finish rules).Known (.repeated form) ∧ _ :=
    Numbering.known_of_mem sensible (mem_rules p) h
  rw [numbering_eq]
  apply known.1

end Spelled

/-! ### Trees without what only holds others -/

/-- The phrases that only hold one of several others. -/
def isWrapperPhrase : Phrase → Bool
  | .text | .topStatement | .statement | .declaration | .type | .plainType => true
  | _ => false

theorem isWrapper_ruleNumber (p : Phrase) :
  isWrapper (ruleNumber p) = isWrapperPhrase p
  := by
  have short := ruleNumber_lt p
  have wrappers : unitRules.wrappers
      = [Phrase.text, .topStatement, .statement, .declaration, .type, .plainType].map ruleNumber := rfl
  rw [isWrapper, wrappers, decide_eq_false (Nat.not_le.mpr short), Bool.false_or, Bool.eq_iff_iff,
    List.contains_iff_mem]
  simp only [List.map_cons, List.map_nil, List.mem_cons, List.not_mem_nil, ruleNumber_inj, or_false]
  cases p <;> simp [isWrapperPhrase]

theorem Parsed.exists_node {p : Phrase} (x : Parsed p) :
  ∃ start stop, x.tree = .node (ruleNumber p) start stop x.tree.children
  := by
  have symbol := x.symbol
  cases h : x.tree with
  | leaf token start stop =>
    rw [h] at symbol
    contradiction
  | node rule start stop children =>
    rw [h] at symbol
    obtain rfl : rule = ruleNumber p := Symbol.rule.inj symbol
    exact ⟨start, stop, rfl⟩

theorem unwrap_wrapper {p : Phrase} (x : Parsed p) (h : isWrapperPhrase p = true) :
  unwrap x.tree = unwrapAll x.tree.children
  := by
  obtain ⟨start, stop, tree⟩ := x.exists_node
  rw [tree, unwrap, isWrapper_ruleNumber, if_pos h, Tree.children]

theorem unwrap_phrase {p : Phrase} (x : Parsed p) (h : isWrapperPhrase p = false) :
  unwrap x.tree = [x.tree]
  := by
  obtain ⟨start, stop, tree⟩ := x.exists_node
  rw [tree, unwrap, isWrapper_ruleNumber, if_neg (Bool.eq_false_iff.mp h)]

@[simp]
theorem unwrap_token {t : Terminal} (x : Token t) :
  unwrap x.tree = [x.tree]
  := by
  rw [Token.tree, unwrap]

@[simp]
theorem unwrapAll_append (trees trees' : List Tree) :
  unwrapAll (trees ++ trees') = unwrapAll trees ++ unwrapAll trees'
  := by
  induction trees with
  | nil => rfl
  | cons tree trees ih => rw [List.cons_append, unwrapAll, unwrapAll, ih, List.append_assoc]

theorem isWrapper_repeated {form : Form} {rule : Nat}
    (h : .rule rule = numbering.symbol (.repeated form)) :
  isWrapper rule = true
  := by
  have count : unitRules.repetition = grammar.names.size := rfl
  have number := Symbol.rule.inj h
  rw [isWrapper, Bool.or_eq_true, decide_eq_true_eq, count, names_grammar, List.size_toArray, number]
  exact .inl (Nat.le_add_right _ _)

/-- Of a repetition the repeated trees remain. -/
theorem unwrap_repeats {form : Form} {tree : Tree} {rows : List (List Tree)}
    (h : Repeats (numbering.symbol (.repeated form)) tree rows) :
  unwrap tree = unwrapAll rows.flatten
  := by
  induction h with
  | one row same => rw [unwrap, isWrapper_repeated same, if_pos rfl, List.flatten_singleton]
  | more row same before ih =>
    rw [unwrap, isWrapper_repeated same, if_pos rfl, unwrapAll, ih, List.flatten_append,
      unwrapAll_append, List.flatten_singleton]

/-! ### Which trees are meant -/

theorem isNode_token {t : Terminal} (x : Token t) (rule : Nat) :
  x.tree.isNode rule = false
  := rfl

theorem isNode_parsed {p : Phrase} (x : Parsed p) (q : Phrase) :
  x.tree.isNode (ruleNumber q) = decide (p = q)
  := by
  obtain ⟨start, stop, tree⟩ := x.exists_node
  rw [tree, Tree.isNode, ruleNumber_beq]

theorem isName_token {t : Terminal} (x : Token t) :
  isName x.tree = decide (t = .identifier)
  := by
  have number : openTokens.identifier = tokenNumber .identifier := rfl
  rw [isName, number, Token.tree, Tree.isLeaf, tokenNumber_beq isTerminal_identifier]

theorem isName_parsed {p : Phrase} (x : Parsed p) :
  isName x.tree = false
  := by
  obtain ⟨start, stop, tree⟩ := x.exists_node
  rw [tree, isName, Tree.isLeaf]

/-! ### Repeated phrases -/

/-- The tokens of several phrases in a row. -/
def leavesOf {p : Phrase} (xs : List (Parsed p)) : List Leaf :=
  xs.flatMap (·.tree.leaves)

/-- Rows of one phrase each are phrases in a row. -/
theorem exists_parsed {p : Phrase} {rows : List (List Tree)}
    (h : ∀ row ∈ rows, Spelled (.named p) row) :
  ∃ xs : List (Parsed p), rows.flatten = xs.map Parsed.tree
  := by
  induction rows with
  | nil => exact ⟨[], rfl⟩
  | cons row rows ih =>
    obtain ⟨first, others⟩ := List.forall_mem_cons.mp h
    obtain ⟨x, rfl⟩ := spelled_named.mp first
    obtain ⟨xs, same⟩ := ih others
    exact ⟨x :: xs, by rw [List.flatten_cons, same]; rfl⟩

theorem leavesAll_parsed {p : Phrase} (xs : List (Parsed p)) :
  Tree.leavesAll (xs.map Parsed.tree) = leavesOf xs
  := by
  rw [Tree.leavesAll_eq_flatMap, leavesOf, List.flatMap_map]

/-- A phrase any number of times. -/
theorem spelled_many {p : Phrase} {trees : List Tree} (known : .named p ∈ numbering.repeated)
    (h : Spelled (.many (.named p)) trees) :
  ∃ xs : List (Parsed p), Tree.leavesAll trees = leavesOf xs
  := by
  obtain h | rfl := spelled_opt.mp h
  · obtain ⟨tree, rows, rfl, repeats, _, spelled⟩ := spelled_many1 known h
    obtain ⟨xs, same⟩ := exists_parsed spelled
    refine ⟨xs, ?_⟩
    rw [Tree.leavesAll, Tree.leavesAll, List.append_nil, repeats.leaves, same, leavesAll_parsed]
  · exact ⟨[], rfl⟩

end SourceAtlas.Java
