import SourceAtlas.Proofs.Java.Types

/-!
# Written declarations of types

A declaration of a type is a word for its kind and a name, perhaps with modifiers before them, type
parameters, components and clauses behind them, and a body. A clause lists types, and of each listed
class or interface type the simple name is kept.

The main statement is that a declaration has the tokens of the tree it was read as, and that what is
taken from the tree is what it declares (`TypeDeclaration.exists_of_parsed`).
-/

namespace SourceAtlas.Java

open Parsing

/-! ### What is written -/

/-- Types with commas in between. -/
structure TypeList where
  first : WrittenType
  more : List (Token (.sign ",") × WrittenType)

namespace TypeList

/-- The listed types. -/
def types (l : TypeList) : List WrittenType :=
  l.first :: l.more.map Prod.snd

/-- The tokens of the list. -/
def leaves (l : TypeList) : List Leaf :=
  l.first.leaves ++ l.more.flatMap fun (comma, type) => comma.leaf :: type.leaves

end TypeList

/-- A word and the types behind it. -/
structure Clause (word : String) where
  token : Token (.word word)
  types : TypeList

namespace Clause

variable {word : String}

/-- The tokens of the clause. -/
def leaves (c : Clause word) : List Leaf :=
  c.token.leaf :: c.types.leaves

/-- The simple names of the listed class and interface types, in their order. -/
def names (text : Array Char) (c : Clause word) : List String :=
  c.types.types.filterMap (WrittenType.simpleName? text)

end Clause

/-- The word before the name of a type of the kind. -/
def kindWord : TypeKind → Terminal
  | .classType => .word "class"
  | .interface => .word "interface"
  | .enum => .word "enum"
  | .record => .word "record"
  | .annotationType => .sign "@interface"

/-- The phrase for the body of a type of the kind. -/
def kindBody : TypeKind → Phrase
  | .classType => .classBody
  | .interface => .interfaceBody
  | .enum => .enumBody
  | .record => .classBody
  | .annotationType => .annotationBody

/-- A declaration of a type as it is written: its header and its body. -/
structure TypeDeclaration where
  kind : TypeKind
  modifiers : Option (Parsed .modifiers)
  word : Token (kindWord kind)
  name : Token .identifier
  parameters : Option (Parsed .typeParameters)
  components : Option (Parsed .parameters)
  extending : Option (Clause "extends")
  implementing : Option (Clause "implements")
  permits : Option (Parsed .permitsClause)
  body : Parsed (kindBody kind)

namespace TypeDeclaration

/-- The tokens of the declaration. -/
def leaves (d : TypeDeclaration) : List Leaf :=
  leavesOf d.modifiers.toList ++ d.word.leaf :: d.name.leaf :: leavesOf d.parameters.toList
    ++ leavesOf d.components.toList ++ d.extending.toList.flatMap Clause.leaves
    ++ d.implementing.toList.flatMap Clause.leaves ++ leavesOf d.permits.toList ++ d.body.tree.leaves

/-- What is declared: the kind and the name, and the simple names of the types that are listed in the
clauses. -/
def declared (text : Array Char) (d : TypeDeclaration) : Declaration where
  name := d.name.string text
  kind := d.kind
  extending := d.extending.toList.flatMap (Clause.names text)
  implementing := d.implementing.toList.flatMap (Clause.names text)

end TypeDeclaration

/-! ### Clauses -/

section Clauses

variable (text : Array Char)

theorem listed_repeated :
  .seq [.token (.sign ","), .named .type] ∈ numbering.repeated
  := mem_repeated .typeList List.mem_cons_self

theorem filterMap_cons_toList {α β : Type} (f : α → Option β) (x : α) (xs : List α) :
  (x :: xs).filterMap f = (f x).toList ++ xs.filterMap f
  := by
  cases h : f x <;> simp [h]

/-- A token that is not a plain name gives no name of a type. -/
theorem filterMap_token {t : Terminal} (x : Token t) (h : t ≠ .identifier) (trees : List Tree) :
  (unwrap x.tree ++ trees).filterMap (typeName? text) = trees.filterMap (typeName? text)
  := by
  rw [unwrap_token, List.singleton_append, List.filterMap_cons_none]
  rw [typeName?_token, if_neg h]

/-- The members of a list behind the first one. -/
theorem exists_listed {rows : List (List Tree)}
    (h : ∀ row ∈ rows, Spelled (.seq [.token (.sign ","), .named .type]) row) :
  ∃ more : List (Token (.sign ",") × WrittenType),
    Tree.leavesAll rows.flatten = (more.flatMap fun (comma, type) => comma.leaf :: type.leaves)
      ∧ (unwrapAll rows.flatten).filterMap (typeName? text)
        = (more.map Prod.snd).filterMap (WrittenType.simpleName? text)
  := by
  induction rows with
  | nil => exact ⟨[], rfl, rfl⟩
  | cons row rows ih =>
    obtain ⟨first, others⟩ := List.forall_mem_cons.mp h
    simp only [spelled_cons, spelled_nil, spelled_token, spelled_named] at first
    obtain ⟨_, _, ⟨comma, rfl⟩, ⟨_, _, ⟨type, rfl⟩, rfl, rfl⟩, rfl⟩ := first
    obtain ⟨w, tree, leaves, _, unwrapped, name⟩ := WrittenType.exists_of_type text type
    obtain ⟨more, moreLeaves, moreNames⟩ := ih others
    refine ⟨(comma, w) :: more, ?_, ?_⟩
    · simp [Tree.leavesAll, leaves_token, leaves, moreLeaves]
    · rw [List.flatten_cons, List.append_nil, List.singleton_append, List.cons_append,
        List.singleton_append, unwrapAll, unwrapAll, filterMap_token text comma (by simp),
        unwrapped, List.singleton_append, filterMap_cons_toList, moreNames, List.map_cons,
        filterMap_cons_toList, name]

/-- A list of types is read with the simple names of its members. -/
theorem TypeList.exists_of_tree (x : Parsed .typeList) :
  ∃ l : TypeList, l.leaves = x.tree.leaves
    ∧ (parts x.tree).filterMap (typeName? text) = l.types.filterMap (WrittenType.simpleName? text)
  := by
  have spelled := x.spelled
  simp only [Phrase.form, Form.commas1, Rule.separated1, Rule.many, spelled_cons, spelled_nil,
    spelled_opt, spelled_named] at spelled
  obtain ⟨_, _, ⟨type, rfl⟩, ⟨others, _, listed, rfl, rfl⟩, children⟩ := spelled
  rw [List.append_nil] at children
  obtain ⟨w, tree, leaves, _, unwrapped, name⟩ := WrittenType.exists_of_type text type
  have members : ∃ more : List (Token (.sign ",") × WrittenType),
      Tree.leavesAll others = (more.flatMap fun (comma, type) => comma.leaf :: type.leaves)
        ∧ (unwrapAll others).filterMap (typeName? text)
          = (more.map Prod.snd).filterMap (WrittenType.simpleName? text) := by
    obtain listed | rfl := listed
    · obtain ⟨tree, rows, rfl, repeats, _, rowsSpelled⟩ := spelled_many1 listed_repeated listed
      obtain ⟨more, moreLeaves, moreNames⟩ := exists_listed text rowsSpelled
      refine ⟨more, ?_, ?_⟩
      · rw [Tree.leavesAll, Tree.leavesAll, List.append_nil, repeats.leaves, moreLeaves]
      · rw [unwrapAll, unwrapAll, List.append_nil, unwrap_repeats repeats, moreNames]
    · exact ⟨[], rfl, rfl⟩
  obtain ⟨more, moreLeaves, moreNames⟩ := members
  refine ⟨⟨w, more⟩, ?_, ?_⟩
  · rw [leaves_parsed, children, Tree.leavesAll_append, moreLeaves, Tree.leavesAll, Tree.leavesAll,
      List.append_nil, TypeList.leaves, leaves]
  · rw [parts, children, unwrapAll_append, unwrapAll, unwrapAll, List.append_nil, unwrapped,
      List.singleton_append, filterMap_cons_toList, moreNames, TypeList.types, filterMap_cons_toList,
      name]

theorem listed_bare {tree : Tree} (h : IsBare tree) :
  listed tree = [tree]
  := by
  have number : unitRules.typeList = ruleNumber .typeList := rfl
  rw [listed, number, if_neg (Bool.eq_false_iff.mp h.notList)]

theorem listed_typeList (x : Parsed .typeList) :
  listed x.tree = parts x.tree
  := by
  have number : unitRules.typeList = ruleNumber .typeList := rfl
  rw [listed, number, if_pos]
  rw [isNode_parsed, decide_eq_true rfl]

/-- The superclass is read as a clause with one type. -/
theorem Clause.exists_of_superclass (x : Parsed .superclass) :
  ∃ c : Clause "extends", c.leaves = x.tree.leaves ∧ typeNames text x.tree = c.names text
  := by
  have spelled := x.spelled
  simp only [Phrase.form, Form.word, spelled_cons, spelled_nil, spelled_token, spelled_named] at spelled
  obtain ⟨_, _, ⟨token, rfl⟩, ⟨_, _, ⟨type, rfl⟩, rfl, rfl⟩, children⟩ := spelled
  obtain ⟨w, tree, leaves, bare, unwrapped, name⟩ := WrittenType.exists_of_type text type
  have below : parts x.tree = [token.tree, tree] := by
    rw [parts, children]
    simp [unwrapAll, unwrapped]
  refine ⟨⟨token, w, []⟩, ?_, ?_⟩
  · rw [leaves_parsed, children]
    simp [Clause.leaves, TypeList.leaves, Tree.leavesAll, leaves_token, leaves]
  · rw [typeNames, below, List.flatMap_cons, List.flatMap_singleton, listed_bare bare,
      listed_bare (isBare_token token), ← unwrap_token, filterMap_token text token (by simp),
      filterMap_cons_toList, name, Clause.names, TypeList.types, filterMap_cons_toList]
    rfl

/-- A clause with a list of types is read with the simple names of the listed types. -/
theorem Clause.exists_of_list {p : Phrase} (x : Parsed p) {word : String}
    (form : p.form = .seq [Form.word word, .named .typeList]) :
  ∃ c : Clause word, c.leaves = x.tree.leaves ∧ typeNames text x.tree = c.names text
  := by
  have spelled := x.spelled
  rw [form] at spelled
  simp only [Form.word, spelled_cons, spelled_nil, spelled_token, spelled_named] at spelled
  obtain ⟨_, _, ⟨token, rfl⟩, ⟨_, _, ⟨types, rfl⟩, rfl, rfl⟩, children⟩ := spelled
  obtain ⟨l, leaves, names⟩ := TypeList.exists_of_tree text types
  have below : parts x.tree = [token.tree, types.tree] := by
    rw [parts, children]
    simp [unwrapAll, unwrap_phrase types rfl]
  refine ⟨⟨token, l⟩, ?_, ?_⟩
  · rw [leaves_parsed, children]
    simp [Clause.leaves, Tree.leavesAll, leaves_token, leaves]
  · rw [typeNames, below, List.flatMap_cons, List.flatMap_singleton, listed_typeList,
      listed_bare (isBare_token token), ← unwrap_token, filterMap_token text token (by simp), names,
      Clause.names]

end Clauses

/-! ### Declarations of types -/

section Declarations

variable (text : Array Char)

/-- The kind of types that a phrase declares. -/
def kindOf? : Phrase → Option TypeKind
  | .classDeclaration => some .classType
  | .interfaceDeclaration => some .interface
  | .enumDeclaration => some .enum
  | .recordDeclaration => some .record
  | .annotationDeclaration => some .annotationType
  | _ => none

theorem lookup_kinds (p : Phrase) :
  unitRules.kinds.lookup (ruleNumber p) = kindOf? p
  := by
  have kinds : unitRules.kinds = [
      (ruleNumber .classDeclaration, .classType), (ruleNumber .interfaceDeclaration, .interface),
      (ruleNumber .enumDeclaration, .enum), (ruleNumber .recordDeclaration, .record),
      (ruleNumber .annotationDeclaration, .annotationType)] := rfl
  rw [kinds]
  simp only [List.lookup_cons, ruleNumber_beq, List.lookup_nil]
  cases p <;> rfl

theorem declarationOf?_parsed {p : Phrase} (x : Parsed p) :
  declarationOf? text x.tree
    = (kindOf? p).bind fun kind => declarationFrom? text kind (parts x.tree)
  := by
  obtain ⟨start, stop, tree⟩ := x.exists_node
  rw [tree, declarationOf?, lookup_kinds]

theorem extending_parsed {p : Phrase} (x : Parsed p) :
  unitRules.extending.any (x.tree.isNode ·) = decide (p = .superclass ∨ p = .extendsClause)
  := by
  have numbers : unitRules.extending = [Phrase.superclass, .extendsClause].map ruleNumber := rfl
  rw [numbers, List.any_map, List.any_cons, List.any_cons, List.any_nil, Function.comp_apply,
    Function.comp_apply, isNode_parsed, isNode_parsed, Bool.or_false, Bool.decide_or]

theorem implementing_parsed {p : Phrase} (x : Parsed p) :
  x.tree.isNode unitRules.implementing = decide (p = .implementsClause)
  := by
  have number : unitRules.implementing = ruleNumber .implementsClause := rfl
  rw [number, isNode_parsed]

/-- Phrases that a test lets through, or does not. -/
theorem filter_parsed {p : Phrase} (xs : List (Parsed p)) (test : Tree → Bool) {b : Bool}
    (h : ∀ x : Parsed p, test x.tree = b) :
  (xs.map Parsed.tree).filter test = if b then xs.map Parsed.tree else []
  := by
  cases b with
  | true =>
    apply List.filter_eq_self.mpr
    simp [h]
  | false =>
    apply List.filter_eq_nil_iff.mpr
    simp [h]

/-- Phrases that are no wrappers stay as they are. -/
theorem unwrapAll_parsed {p : Phrase} (xs : List (Parsed p)) (h : isWrapperPhrase p = false) :
  unwrapAll (xs.map Parsed.tree) = xs.map Parsed.tree
  := by
  induction xs with
  | nil => rfl
  | cons x xs ih => rw [List.map_cons, unwrapAll, ih, unwrap_phrase x h, List.singleton_append]

/-- What a declaration of a type is read from, in the order of the text. -/
structure Row where
  kind : TypeKind
  modifiers : Option (Parsed .modifiers)
  word : Token (kindWord kind)
  name : Token .identifier
  parameters : Option (Parsed .typeParameters)
  components : Option (Parsed .parameters)
  clause : Phrase
  isClause : clause = .superclass ∨ clause = .extendsClause
  extending : Option (Parsed clause)
  implementing : Option (Parsed .implementsClause)
  permits : Option (Parsed .permitsClause)
  body : Parsed (kindBody kind)

/-- The trees of a row. -/
def Row.trees (r : Row) : List Tree :=
  r.modifiers.toList.map Parsed.tree ++ [r.word.tree, r.name.tree]
    ++ r.parameters.toList.map Parsed.tree ++ r.components.toList.map Parsed.tree
    ++ r.extending.toList.map Parsed.tree ++ r.implementing.toList.map Parsed.tree
    ++ r.permits.toList.map Parsed.tree ++ [r.body].map Parsed.tree

namespace Row

variable (r : Row)

theorem unwrapAll_trees :
  unwrapAll r.trees = r.trees
  := by
  have body : isWrapperPhrase (kindBody r.kind) = false := by cases r.kind <;> rfl
  have clause : isWrapperPhrase r.clause = false := by
    obtain h | h := r.isClause <;> rw [h] <;> rfl
  simp only [trees, unwrapAll_append, unwrapAll, unwrap_token,
    unwrapAll_parsed r.modifiers.toList rfl, unwrapAll_parsed r.parameters.toList rfl,
    unwrapAll_parsed r.components.toList rfl, unwrapAll_parsed r.extending.toList clause,
    unwrapAll_parsed r.implementing.toList rfl, unwrapAll_parsed r.permits.toList rfl,
    unwrapAll_parsed [r.body] body, List.singleton_append]

theorem filter_extending :
  (r.trees.filter fun t => unitRules.extending.any t.isNode) = r.extending.toList.map Parsed.tree
  := by
  have other : ∀ {p : Phrase} (xs : List (Parsed p)), p ≠ .superclass → p ≠ .extendsClause →
      ((xs.map Parsed.tree).filter fun t => unitRules.extending.any t.isNode) = [] := by
    intro p xs ne ne'
    apply filter_parsed xs _ (b := false)
    intro x
    rw [extending_parsed, decide_eq_false (by simp [ne, ne'])]
  have clause : ((r.extending.toList.map Parsed.tree).filter fun t =>
      unitRules.extending.any t.isNode) = r.extending.toList.map Parsed.tree := by
    apply filter_parsed _ _ (b := true)
    intro x
    rw [extending_parsed, decide_eq_true r.isClause]
  have tokens : ([r.word.tree, r.name.tree].filter fun t => unitRules.extending.any t.isNode) = [] := by
    rw [List.filter_eq_nil_iff]
    simp [isNode_token]
  have body : kindBody r.kind ≠ .superclass ∧ kindBody r.kind ≠ .extendsClause := by
    cases r.kind <;> exact ⟨nofun, nofun⟩
  simp only [trees, List.filter_append, other r.modifiers.toList nofun nofun,
    other r.parameters.toList nofun nofun, other r.components.toList nofun nofun, clause, tokens,
    other r.implementing.toList nofun nofun, other r.permits.toList nofun nofun,
    other [r.body] body.1 body.2, List.nil_append, List.append_nil]

theorem filter_implementing :
  r.trees.filter (·.isNode unitRules.implementing) = r.implementing.toList.map Parsed.tree
  := by
  have other : ∀ {p : Phrase} (xs : List (Parsed p)), p ≠ .implementsClause →
      (xs.map Parsed.tree).filter (·.isNode unitRules.implementing) = [] := by
    intro p xs ne
    apply filter_parsed xs _ (b := false)
    intro x
    rw [implementing_parsed, decide_eq_false ne]
  have clause : (r.implementing.toList.map Parsed.tree).filter (·.isNode unitRules.implementing)
      = r.implementing.toList.map Parsed.tree := by
    apply filter_parsed _ _ (b := true)
    intro x
    rw [implementing_parsed, decide_eq_true rfl]
  have tokens : [r.word.tree, r.name.tree].filter (·.isNode unitRules.implementing) = [] := rfl
  have extending : r.clause ≠ .implementsClause := by
    obtain h | h := r.isClause <;> rw [h] <;> nofun
  have body : kindBody r.kind ≠ .implementsClause := by
    cases r.kind <;> nofun
  simp only [trees, List.filter_append, other r.modifiers.toList nofun,
    other r.parameters.toList nofun, other r.components.toList nofun, clause, tokens,
    other r.extending.toList extending, other r.permits.toList nofun, other [r.body] body,
    List.nil_append, List.append_nil]

theorem find?_isName :
  r.trees.find? isName = some r.name.tree
  := by
  have modifiers : (r.modifiers.toList.map Parsed.tree).find? isName = none := by
    simp [isName_parsed]
  have word : isName r.word.tree = false := by
    rw [isName_token]
    cases r.kind <;> rfl
  have name : isName r.name.tree = true := by
    rw [isName_token]
    rfl
  simp only [trees, List.append_assoc, List.find?_append, modifiers, List.cons_append,
    List.find?_cons_of_neg (Bool.eq_false_iff.mp word), List.find?_cons_of_pos name, Option.none_or]

theorem leavesAll_trees :
  Tree.leavesAll r.trees
    = leavesOf r.modifiers.toList ++ r.word.leaf :: r.name.leaf :: leavesOf r.parameters.toList
      ++ leavesOf r.components.toList ++ leavesOf r.extending.toList
      ++ leavesOf r.implementing.toList ++ leavesOf r.permits.toList ++ r.body.tree.leaves
  := by
  simp [trees, Tree.leavesAll_append, leavesAll_parsed, Tree.leavesAll, leaves_token]

end Row

/-- A clause that may be left out. -/
theorem Clause.exists_of_option {p : Phrase} {word : String}
    (h : ∀ x : Parsed p, ∃ c : Clause word,
      c.leaves = x.tree.leaves ∧ typeNames text x.tree = c.names text) (x : Option (Parsed p)) :
  ∃ c : Option (Clause word), c.toList.flatMap Clause.leaves = leavesOf x.toList
    ∧ (x.toList.map Parsed.tree).flatMap (typeNames text) = c.toList.flatMap (Clause.names text)
  := by
  cases x with
  | none => exact ⟨none, rfl, rfl⟩
  | some x =>
    obtain ⟨c, leaves, names⟩ := h x
    refine ⟨some c, ?_, ?_⟩
    · simp [leavesOf, leaves]
    · simp [names]

/-- A declaration of a type with the given parts is read as what it declares. -/
theorem TypeDeclaration.exists_of_row {p : Phrase} (x : Parsed p) (r : Row)
    (kind : kindOf? p = some r.kind) (children : x.tree.children = r.trees) :
  ∃ d : TypeDeclaration, kindOf? p = some d.kind ∧ d.leaves = x.tree.leaves
    ∧ declarationOf? text x.tree = some (d.declared text)
  := by
  have clause : ∀ y : Parsed r.clause, ∃ c : Clause "extends",
      c.leaves = y.tree.leaves ∧ typeNames text y.tree = c.names text := by
    obtain h | h := r.isClause <;> rw [h]
    · apply Clause.exists_of_superclass
    · intro y
      apply Clause.exists_of_list text y rfl
  obtain ⟨extending, leaves, names⟩ := Clause.exists_of_option text clause r.extending
  have list : Phrase.implementsClause.form = .seq [Form.word "implements", .named .typeList] := rfl
  obtain ⟨implementing, leaves', names'⟩ := Clause.exists_of_option text
    (fun y => Clause.exists_of_list text y list) r.implementing
  refine ⟨{ r with extending, implementing }, kind, ?_, ?_⟩
  · rw [leaves_parsed, children, r.leavesAll_trees, TypeDeclaration.leaves, leaves, leaves']
  · have name : covered text r.name.tree = (text.extract r.name.start r.name.stop).toList := rfl
    rw [declarationOf?_parsed, kind, Option.bind_some, declarationFrom?, parts, children,
      r.unwrapAll_trees, r.find?_isName, r.filter_extending, r.filter_implementing, names, names',
      Option.map_some, name]
    rfl

/-! ### The parts of the declarations, kind by kind -/

theorem Row.exists_of_class (x : Parsed .classDeclaration) :
  ∃ r : Row, kindOf? .classDeclaration = some r.kind ∧ x.tree.children = r.trees
  := by
  have spelled := x.spelled
  simp only [Phrase.form, Form.someModifiers, Form.word, Form.identifier, spelled_cons, spelled_nil,
    spelled_token, spelled_named, spelled_optional] at spelled
  obtain ⟨_, _, ⟨modifiers, rfl⟩, ⟨_, _, ⟨word, rfl⟩, ⟨_, _, ⟨name, rfl⟩, ⟨_, _, ⟨parameters, rfl⟩,
    ⟨_, _, ⟨extending, rfl⟩, ⟨_, _, ⟨implementing, rfl⟩, ⟨_, _, ⟨permits, rfl⟩, ⟨_, _, ⟨body, rfl⟩, rfl,
    rfl⟩, rfl⟩, rfl⟩, rfl⟩, rfl⟩, rfl⟩, rfl⟩, children⟩ := spelled
  refine ⟨{
    kind := .classType, clause := .superclass, isClause := .inl rfl, components := none
    modifiers, word, name, parameters, extending, implementing, permits, body }, rfl, ?_⟩
  simp only [children, Row.trees, List.append_assoc]
  rfl

theorem Row.exists_of_interface (x : Parsed .interfaceDeclaration) :
  ∃ r : Row, kindOf? .interfaceDeclaration = some r.kind ∧ x.tree.children = r.trees
  := by
  have spelled := x.spelled
  simp only [Phrase.form, Form.someModifiers, Form.word, Form.identifier, spelled_cons, spelled_nil,
    spelled_token, spelled_named, spelled_optional] at spelled
  obtain ⟨_, _, ⟨modifiers, rfl⟩, ⟨_, _, ⟨word, rfl⟩, ⟨_, _, ⟨name, rfl⟩, ⟨_, _, ⟨parameters, rfl⟩,
    ⟨_, _, ⟨extending, rfl⟩, ⟨_, _, ⟨permits, rfl⟩, ⟨_, _, ⟨body, rfl⟩, rfl, rfl⟩, rfl⟩, rfl⟩, rfl⟩,
    rfl⟩, rfl⟩, children⟩ := spelled
  refine ⟨{
    kind := .interface, clause := .extendsClause, isClause := .inr rfl, components := none
    implementing := none, modifiers, word, name, parameters, extending, permits, body }, rfl, ?_⟩
  simp only [children, Row.trees, List.append_assoc]
  rfl

theorem Row.exists_of_enum (x : Parsed .enumDeclaration) :
  ∃ r : Row, kindOf? .enumDeclaration = some r.kind ∧ x.tree.children = r.trees
  := by
  have spelled := x.spelled
  simp only [Phrase.form, Form.someModifiers, Form.word, Form.identifier, spelled_cons, spelled_nil,
    spelled_token, spelled_named, spelled_optional] at spelled
  obtain ⟨_, _, ⟨modifiers, rfl⟩, ⟨_, _, ⟨word, rfl⟩, ⟨_, _, ⟨name, rfl⟩, ⟨_, _, ⟨implementing, rfl⟩,
    ⟨_, _, ⟨body, rfl⟩, rfl, rfl⟩, rfl⟩, rfl⟩, rfl⟩, children⟩ := spelled
  refine ⟨{
    kind := .enum, clause := .superclass, isClause := .inl rfl, parameters := none
    components := none, extending := none, permits := none
    modifiers, word, name, implementing, body }, rfl, ?_⟩
  simp only [children, Row.trees, List.append_assoc]
  rfl

theorem Row.exists_of_record (x : Parsed .recordDeclaration) :
  ∃ r : Row, kindOf? .recordDeclaration = some r.kind ∧ x.tree.children = r.trees
  := by
  have spelled := x.spelled
  simp only [Phrase.form, Form.someModifiers, Form.word, Form.identifier, spelled_cons, spelled_nil,
    spelled_token, spelled_named, spelled_optional] at spelled
  obtain ⟨_, _, ⟨modifiers, rfl⟩, ⟨_, _, ⟨word, rfl⟩, ⟨_, _, ⟨name, rfl⟩, ⟨_, _, ⟨parameters, rfl⟩,
    ⟨_, _, ⟨components, rfl⟩, ⟨_, _, ⟨implementing, rfl⟩, ⟨_, _, ⟨body, rfl⟩, rfl, rfl⟩, rfl⟩, rfl⟩,
    rfl⟩, rfl⟩, rfl⟩, children⟩ := spelled
  refine ⟨{
    kind := .record, clause := .superclass, isClause := .inl rfl, components := some components
    extending := none, permits := none
    modifiers, word, name, parameters, implementing, body }, rfl, ?_⟩
  simp only [children, Row.trees, List.append_assoc]
  rfl

theorem Row.exists_of_annotation (x : Parsed .annotationDeclaration) :
  ∃ r : Row, kindOf? .annotationDeclaration = some r.kind ∧ x.tree.children = r.trees
  := by
  have spelled := x.spelled
  simp only [Phrase.form, Form.someModifiers, Form.sign, Form.identifier, spelled_cons, spelled_nil,
    spelled_token, spelled_named, spelled_optional] at spelled
  obtain ⟨_, _, ⟨modifiers, rfl⟩, ⟨_, _, ⟨word, rfl⟩, ⟨_, _, ⟨name, rfl⟩, ⟨_, _, ⟨body, rfl⟩, rfl,
    rfl⟩, rfl⟩, rfl⟩, children⟩ := spelled
  refine ⟨{
    kind := .annotationType, clause := .superclass, isClause := .inl rfl, parameters := none
    components := none, extending := none, implementing := none, permits := none
    modifiers, word, name, body }, rfl, ?_⟩
  simp only [children, Row.trees, List.append_assoc]
  rfl

/-- A declaration of a type has the tokens of the tree it was read as, and is read as what it
declares. -/
theorem TypeDeclaration.exists_of_parsed {p : Phrase} {kind : TypeKind} (x : Parsed p)
    (h : kindOf? p = some kind) :
  ∃ d : TypeDeclaration, kindOf? p = some d.kind ∧ d.leaves = x.tree.leaves
    ∧ declarationOf? text x.tree = some (d.declared text)
  := by
  have row : ∃ r : Row, kindOf? p = some r.kind ∧ x.tree.children = r.trees := by
    cases p <;> cases h
    · apply Row.exists_of_enum
    · apply Row.exists_of_class
    · apply Row.exists_of_record
    · apply Row.exists_of_annotation
    · apply Row.exists_of_interface
  obtain ⟨r, same, children⟩ := row
  apply exists_of_row text x r same children

end Declarations

end SourceAtlas.Java
