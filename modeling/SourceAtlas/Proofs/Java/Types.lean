import SourceAtlas.Proofs.Java.Forms

/-!
# Written types

A class or interface type is a name, a name behind an outer type and a dot, or a type with
arguments; annotations may stand before it and before the names inside it. Its simple name is its
last name, whatever the outer types, the arguments and the annotations are. Primitive types and
arrays have no simple name.

The main statement is that a written type has the tokens of the tree it was read as, and that the
name that is taken from the tree is its simple name (`WrittenType.exists_of_type`).
-/

namespace SourceAtlas.Java

open Parsing

/-- The characters of a token. -/
def Token.string {t : Terminal} (text : Array Char) (x : Token t) : String :=
  .ofList (text.extract x.start x.stop).toList

/-- A class or interface type without annotations before it. -/
inductive ClassType where
  /-- A plain name. -/
  | named (name : Token .identifier)
  /-- A type inside another one or inside a package. -/
  | member (outer : ClassType) (dot : Token (.sign ".")) (annotations : List (Parsed .annotationUse))
      (name : Token .identifier)
  /-- A type with arguments. -/
  | applied (base : ClassType) (arguments : Parsed .typeArguments)

namespace ClassType

/-- The tokens of a type. -/
def leaves : ClassType → List Leaf
  | named name => [name.leaf]
  | member outer dot annotations name =>
    outer.leaves ++ dot.leaf :: leavesOf annotations ++ [name.leaf]
  | applied base arguments => base.leaves ++ arguments.tree.leaves

/-- The last name of a type. -/
def name : ClassType → Token .identifier
  | named name => name
  | member _ _ _ name => name
  | applied base _ => base.name

end ClassType

/-- The words for primitive types. -/
def primitiveWords : List String :=
  ["void", "boolean", "byte", "short", "int", "long", "char", "float", "double"]

/-- A type as it is written. -/
inductive WrittenType where
  | classType (annotations : List (Parsed .annotationUse)) (type : ClassType)
  | primitive (annotations : List (Parsed .annotationUse)) (word : String)
      (known : word ∈ primitiveWords) (token : Token (.word word))
  | array (annotations : List (Parsed .annotationUse)) (type : Parsed .arrayType)

namespace WrittenType

/-- The tokens of a type. -/
def leaves : WrittenType → List Leaf
  | classType annotations type => leavesOf annotations ++ type.leaves
  | primitive annotations _ _ token => leavesOf annotations ++ [token.leaf]
  | array annotations type => leavesOf annotations ++ type.tree.leaves

/-- The simple name of a type, if it is a class or interface type. -/
def simpleName? (text : Array Char) : WrittenType → Option String
  | classType _ type => some (type.name.string text)
  | primitive _ _ _ _ => none
  | array _ _ => none

end WrittenType

/-! ### The names of trees -/

section TypeName

variable {text : Array Char}

theorem typeName?_token {t : Terminal} (x : Token t) :
  typeName? text x.tree = if t = .identifier then some (x.string text) else none
  := by
  have number : openTokens.identifier = tokenNumber .identifier := rfl
  rw [Token.tree, typeName?, number, tokenNumber_beq isTerminal_identifier]
  simp [Token.string]

theorem typeName?_parsed {p : Phrase} (x : Parsed p) :
  typeName? text x.tree
    = if p = .appliedType then firstTypeName? text x.tree.children
      else if p = .qualifiedType ∨ p = .annotatedType ∨ isWrapperPhrase p = true then
        lastTypeName? text x.tree.children
      else none
  := by
  have applied : unitRules.appliedType = ruleNumber .appliedType := rfl
  have last : unitRules.lastNamed = [Phrase.qualifiedType, .annotatedType].map ruleNumber := rfl
  obtain ⟨start, stop, tree⟩ := x.exists_node
  rw [tree, typeName?, applied, last, isWrapper_ruleNumber, ruleNumber_beq]
  simp [ruleNumber_inj, Tree.children, or_assoc]

/-! ### Shapes of types -/

theorem annotationUse_repeated :
  .named .annotationUse ∈ numbering.repeated
  := mem_repeated .annotatedType List.mem_cons_self

/-- The tree of a class or interface type without annotations before it. -/
inductive IsClassType : Tree → Prop where
  | named (name : Token .identifier) : IsClassType name.tree
  | member (type : Parsed .qualifiedType) : IsClassType type.tree
  | applied (type : Parsed .appliedType) : IsClassType type.tree

theorem spelled_qualifiedType {trees : List Tree} (h : Spelled (Phrase.form .qualifiedType) trees) :
  ∃ outer : Tree, ∃ dot : Token (.sign "."), ∃ annotations : List Tree, ∃ name : Token .identifier,
    IsClassType outer ∧ Spelled Form.annotations annotations
      ∧ trees = outer :: dot.tree :: annotations ++ [name.tree]
  := by
  simp only [Phrase.form, spelled_cons, spelled_one, spelled_none, spelled_nil, Form.identifier,
    Form.sign, spelled_token, spelled_named, or_false] at h
  obtain ⟨first, _, outer, ⟨_, _, ⟨dot, rfl⟩, ⟨annotations, _, spelled, ⟨_, _, ⟨name, rfl⟩, rfl, rfl⟩,
    rfl⟩, rfl⟩, rfl⟩ := h
  obtain ⟨tree, isType, rfl⟩ : ∃ tree, IsClassType tree ∧ first = [tree] := by
    obtain ⟨x, rfl⟩ | ⟨x, rfl⟩ | ⟨x, rfl⟩ := outer
    · exact ⟨_, .named x, rfl⟩
    · exact ⟨_, .member x, rfl⟩
    · exact ⟨_, .applied x, rfl⟩
  exact ⟨tree, dot, annotations, name, isType, spelled, by simp⟩

theorem spelled_appliedType {trees : List Tree} (h : Spelled (Phrase.form .appliedType) trees) :
  ∃ base : Tree, ∃ arguments : Parsed .typeArguments,
    IsClassType base ∧ trees = [base, arguments.tree]
  := by
  simp only [Phrase.form, spelled_cons, spelled_one, spelled_none, spelled_nil, Form.identifier,
    spelled_token, spelled_named, or_false] at h
  obtain ⟨first, _, base, ⟨_, _, ⟨arguments, rfl⟩, rfl, rfl⟩, rfl⟩ := h
  obtain ⟨x, rfl⟩ | ⟨x, rfl⟩ := base
  · exact ⟨_, arguments, .named x, rfl⟩
  · exact ⟨_, arguments, .member x, rfl⟩

theorem lastTypeName?_concat (trees : List Tree) (tree : Tree) :
  lastTypeName? text (trees ++ [tree]) = typeName? text tree
  := by
  induction trees with
  | nil => rw [List.nil_append, lastTypeName?]
  | cons first trees ih =>
    cases trees with
    | nil => rw [List.cons_append, List.nil_append, lastTypeName?, lastTypeName?]; simp
    | cons second trees =>
      rw [List.cons_append, List.cons_append, lastTypeName?, ← List.cons_append, ih]
      simp

theorem leaves_token {t : Terminal} (x : Token t) :
  x.tree.leaves = [x.leaf]
  := by
  rw [Token.tree, Tree.leaves, Token.leaf]

theorem leaves_parsed {p : Phrase} (x : Parsed p) :
  x.tree.leaves = Tree.leavesAll x.tree.children
  := by
  obtain ⟨start, stop, tree⟩ := x.exists_node
  rw [tree, Tree.leaves, Tree.children]

theorem sizeOf_child {tree child : Tree} (h : child ∈ tree.children) :
  sizeOf child < sizeOf tree
  := by
  cases tree with
  | leaf => contradiction
  | node rule start stop children =>
    have smaller := List.sizeOf_lt_of_mem (show child ∈ children from h)
    rw [Tree.node.sizeOf_spec]
    omega

/-- A class or interface type is read with its simple name. The type that it is made from is a
child of its tree. -/
theorem ClassType.exists_of_tree (text : Array Char) (tree : Tree) (h : IsClassType tree) :
  ∃ c : ClassType, c.leaves = tree.leaves ∧ typeName? text tree = some (c.name.string text)
  := by
  cases h with
  | named name => exact ⟨.named name, (leaves_token name).symm, typeName?_token name⟩
  | member type =>
    obtain ⟨outer, dot, annotations, name, isType, spelled, children⟩ :=
      spelled_qualifiedType type.spelled
    have child : outer ∈ type.tree.children := by simp [children]
    have smaller := sizeOf_child child
    obtain ⟨c, leaves, _⟩ := exists_of_tree text outer isType
    obtain ⟨xs, annotationLeaves⟩ := spelled_many annotationUse_repeated spelled
    refine ⟨.member c dot xs name, ?_, ?_⟩
    · rw [leaves_parsed, children]
      simp [ClassType.leaves, Tree.leavesAll, leaves, annotationLeaves, leaves_token]
    · rw [typeName?_parsed, children, lastTypeName?_concat, typeName?_token]
      rfl
  | applied type =>
    obtain ⟨base, arguments, isType, children⟩ := spelled_appliedType type.spelled
    have child : base ∈ type.tree.children := by simp [children]
    have smaller := sizeOf_child child
    obtain ⟨c, leaves, name⟩ := exists_of_tree text base isType
    refine ⟨.applied c arguments, ?_, ?_⟩
    · rw [leaves_parsed, children]
      simp [ClassType.leaves, Tree.leavesAll, leaves]
    · rw [typeName?_parsed, children, if_pos rfl, firstTypeName?, name]
      rfl
  termination_by sizeOf tree

/-! ### Types with annotations, primitive types and arrays -/

/-- The name of what holds only one tree is the name of that tree. -/
theorem typeName?_wrapper {p : Phrase} (x : Parsed p) (wrapper : isWrapperPhrase p = true)
    {tree : Tree} (children : x.tree.children = [tree]) :
  typeName? text x.tree = typeName? text tree
  := by
  have notApplied : p ≠ .appliedType := by
    rintro rfl
    contradiction
  rw [typeName?_parsed, if_neg notApplied, if_pos (.inr (.inr wrapper)), children, lastTypeName?]

/-- One of several words. -/
theorem spelled_oneWord {words : List String} {trees : List Tree} (h : Spelled (.oneWord words) trees) :
  ∃ word ∈ words, ∃ token : Token (.word word), trees = [token.tree]
  := by
  induction words with
  | nil => exact absurd h spelled_none
  | cons word words ih =>
    obtain h | h := spelled_one.mp h
    · obtain ⟨token, rfl⟩ := spelled_token.mp h
      exact ⟨word, List.mem_cons_self, token, rfl⟩
    · obtain ⟨word', hw, token, rfl⟩ := ih h
      exact ⟨word', List.mem_cons_of_mem _ hw, token, rfl⟩

/-- A primitive type is one word and has no name. -/
def IsPrimitive (text : Array Char) (tree : Tree) : Prop :=
  ∃ word ∈ primitiveWords, ∃ token : Token (.word word),
    tree.leaves = [token.leaf] ∧ typeName? text tree = none

theorem isPrimitive_token {word : String} (known : word ∈ primitiveWords)
    (token : Token (.word word)) :
  IsPrimitive text token.tree
  := by
  refine ⟨word, known, token, leaves_token token, ?_⟩
  rw [typeName?_token, if_neg nofun]

theorem isPrimitive_parsed {p : Phrase} (x : Parsed p) {words : List String}
    (form : p.form = .oneWord words) (known : ∀ word ∈ words, word ∈ primitiveWords)
    (name : typeName? text x.tree = none) :
  IsPrimitive text x.tree
  := by
  have spelled := x.spelled
  rw [form] at spelled
  obtain ⟨word, hw, token, children⟩ := spelled_oneWord spelled
  refine ⟨word, known word hw, token, ?_, name⟩
  rw [leaves_parsed, children, Tree.leavesAll, Tree.leavesAll, leaves_token, List.append_nil]

/-- A tree that is left of a type when the rules that only hold others are gone. -/
structure IsBare (tree : Tree) : Prop where
  alone : unwrap tree = [tree]
  notList : tree.isNode (ruleNumber .typeList) = false

theorem isBare_token {t : Terminal} (x : Token t) :
  IsBare x.tree
  := ⟨unwrap_token x, rfl⟩

theorem isBare_parsed {p : Phrase} (x : Parsed p) (notWrapper : isWrapperPhrase p = false)
    (notList : p ≠ .typeList) :
  IsBare x.tree
  := by
  refine ⟨unwrap_phrase x notWrapper, ?_⟩
  rw [isNode_parsed, decide_eq_false notList]

/-- A type without annotations holds a class type, a primitive type or an array. -/
theorem exists_child_plainType (text : Array Char) (x : Parsed .plainType) :
  ∃ tree, x.tree.children = [tree] ∧ IsBare tree
    ∧ (IsClassType tree ∨ IsPrimitive text tree ∨ ∃ array : Parsed .arrayType, tree = array.tree)
  := by
  have spelled := x.spelled
  simp only [Phrase.form, Form.simpleType, spelled_one, spelled_none, Form.identifier, Form.word,
    spelled_token, spelled_named, or_false] at spelled
  obtain (⟨token, h⟩ | ⟨y, h⟩ | ⟨y, h⟩ | ⟨token, h⟩ | ⟨token, h⟩ | ⟨y, h⟩ | ⟨y, h⟩) | ⟨y, h⟩ := spelled
  · exact ⟨_, h, isBare_token token, .inr (.inl (isPrimitive_token (by decide) token))⟩
  · refine ⟨_, h, isBare_parsed y rfl nofun, .inr (.inl ?_)⟩
    exact isPrimitive_parsed y rfl (by decide) (typeName?_parsed y)
  · refine ⟨_, h, isBare_parsed y rfl nofun, .inr (.inl ?_)⟩
    exact isPrimitive_parsed y rfl (by decide) (typeName?_parsed y)
  · exact ⟨_, h, isBare_token token, .inr (.inl (isPrimitive_token (by decide) token))⟩
  · exact ⟨_, h, isBare_token token, .inl (.named token)⟩
  · exact ⟨_, h, isBare_parsed y rfl nofun, .inl (.member y)⟩
  · exact ⟨_, h, isBare_parsed y rfl nofun, .inl (.applied y)⟩
  · exact ⟨_, h, isBare_parsed y rfl nofun, .inr (.inr ⟨y, rfl⟩)⟩

/-- A type behind some annotations is read with its simple name. -/
theorem WrittenType.exists_of_plainType (text : Array Char)
    (annotations : List (Parsed .annotationUse)) (x : Parsed .plainType) :
  ∃ w : WrittenType, ∃ tree, w.leaves = leavesOf annotations ++ x.tree.leaves
    ∧ w.simpleName? text = typeName? text x.tree ∧ IsBare tree ∧ unwrap x.tree = [tree]
    ∧ typeName? text tree = typeName? text x.tree
  := by
  obtain ⟨tree, children, bare, kind⟩ := exists_child_plainType text x
  have leaves : x.tree.leaves = tree.leaves := by
    rw [leaves_parsed, children, Tree.leavesAll, Tree.leavesAll, List.append_nil]
  have unwrapped : unwrap x.tree = [tree] := by
    rw [unwrap_wrapper x rfl, children, unwrapAll, unwrapAll, bare.alone, List.append_nil]
  rw [typeName?_wrapper x rfl children, leaves]
  obtain isClass | ⟨word, known, token, same, none⟩ | ⟨array, rfl⟩ := kind
  · obtain ⟨c, same, name⟩ := ClassType.exists_of_tree text tree isClass
    refine ⟨.classType annotations c, tree, ?_, ?_, bare, unwrapped, rfl⟩
    · rw [WrittenType.leaves, same]
    · rw [simpleName?, name]
  · refine ⟨.primitive annotations word known token, tree, ?_, ?_, bare, unwrapped, rfl⟩
    · rw [WrittenType.leaves, same]
    · rw [simpleName?, none]
  · refine ⟨.array annotations array, _, rfl, ?_, bare, unwrapped, rfl⟩
    rw [simpleName?, typeName?_parsed]
    rfl

theorem spelled_annotatedType {trees : List Tree} (h : Spelled (Phrase.form .annotatedType) trees) :
  ∃ tree, ∃ annotations : List (Parsed .annotationUse), ∃ type : Parsed .plainType,
    trees = [tree, type.tree] ∧ tree.leaves = leavesOf annotations
  := by
  simp only [Phrase.form, spelled_cons, spelled_nil, spelled_named] at h
  obtain ⟨_, _, spelled, ⟨_, _, ⟨type, rfl⟩, rfl, rfl⟩, rfl⟩ := h
  obtain ⟨tree, rows, rfl, repeats, _, rowsSpelled⟩ := spelled_many1 annotationUse_repeated spelled
  obtain ⟨annotations, same⟩ := exists_parsed rowsSpelled
  refine ⟨tree, annotations, type, rfl, ?_⟩
  rw [repeats.leaves, same, leavesAll_parsed]

/-- Every type is read with its simple name. -/
theorem WrittenType.exists_of_type (text : Array Char) (x : Parsed .type) :
  ∃ w : WrittenType, ∃ tree, w.leaves = x.tree.leaves ∧ IsBare tree ∧ unwrap x.tree = [tree]
    ∧ typeName? text tree = w.simpleName? text
  := by
  have spelled := x.spelled
  simp only [Phrase.form, spelled_one, spelled_none, spelled_named, or_false] at spelled
  obtain ⟨plain, children⟩ | ⟨annotated, children⟩ := spelled
  · obtain ⟨w, tree, leaves, name, bare, unwrapped, same⟩ := exists_of_plainType text [] plain
    refine ⟨w, tree, ?_, bare, ?_, ?_⟩
    · rw [leaves, leaves_parsed x, children]
      simp [leavesOf, Tree.leavesAll]
    · rw [unwrap_wrapper x rfl, children, unwrapAll, unwrapAll, unwrapped, List.append_nil]
    · rw [same, name]
  · obtain ⟨tree, annotations, plain, inner, leaves⟩ := spelled_annotatedType annotated.spelled
    obtain ⟨w, _, leaves', name, _⟩ := exists_of_plainType text annotations plain
    have bare := isBare_parsed annotated rfl (by decide)
    refine ⟨w, annotated.tree, ?_, bare, ?_, ?_⟩
    · rw [leaves', leaves_parsed x, children]
      simp [Tree.leavesAll, leaves_parsed annotated, inner, leaves]
    · rw [unwrap_wrapper x rfl, children, unwrapAll, unwrapAll, bare.alone, List.append_nil]
    · rw [name, typeName?_parsed annotated, inner]
      simp [lastTypeName?]

/-- The name of a type is the name of what is left of it. -/
theorem typeName?_type (x : Parsed .type) {tree : Tree} (h : unwrap x.tree = [tree]) :
  typeName? text x.tree = typeName? text tree
  := by
  have spelled := x.spelled
  simp only [Phrase.form, spelled_one, spelled_none, spelled_named, or_false] at spelled
  obtain ⟨plain, children⟩ | ⟨annotated, children⟩ := spelled
  · obtain ⟨inner, innerChildren, bare, _⟩ := exists_child_plainType text plain
    rw [unwrap_wrapper x rfl, children, unwrapAll, unwrapAll, unwrap_wrapper plain rfl, innerChildren,
      unwrapAll, unwrapAll, bare.alone] at h
    obtain rfl : inner = tree := by simpa using h
    rw [typeName?_wrapper x rfl children, typeName?_wrapper plain rfl innerChildren]
  · rw [unwrap_wrapper x rfl, children, unwrapAll, unwrapAll, unwrap_phrase annotated rfl] at h
    obtain rfl : annotated.tree = tree := by simpa using h
    rw [typeName?_wrapper x rfl children]

end TypeName

end SourceAtlas.Java
