import SourceAtlas.Proofs.Java.Declarations

/-!
# Written units

A text is made of statements, one after the other: the tree as which it was read is a repetition of
their trees (`MadeOf`). Of the statements the declarations of types and of packages count. What is kept
of a text is what its declarations declare, in the order of the text, and the package that is named
last (`exists_statements`).
-/

namespace SourceAtlas.Java

open Parsing

/-! ### What is written -/

/-- The words that may be used as names. -/
def softWords : List String :=
  ["open", "module", "record", "with", "sealed", "yield"]

/-- The first name of a path. -/
inductive FirstName where
  | plain (token : Token .identifier)
  | soft (word : String) (known : word ∈ softWords) (token : Token (.word word))

/-- The token of the name. -/
def FirstName.leaf : FirstName → Leaf
  | plain token => token.leaf
  | soft _ _ token => token.leaf

/-- Names with dots in between. -/
structure Path where
  first : FirstName
  more : List (Token (.sign ".") × Token .identifier)

namespace Path

/-- The tokens of the path. -/
def leaves (p : Path) : List Leaf :=
  p.first.leaf :: p.more.flatMap fun (dot, name) => [dot.leaf, name.leaf]

/-- Where the last name of the path stops. -/
def stop (p : Path) : Nat :=
  ((p.more.map fun (_, name) => name.stop).getLast?).getD p.first.leaf.stop

/-- The characters from the first name to the last one, without blanks. -/
def shown (text : Array Char) (p : Path) : String :=
  .ofList ((text.extract p.first.leaf.start p.stop).toList.filter fun c => !Text.isBlank c)

end Path

/-- A declaration of a package as it is written. -/
structure PackageDeclaration where
  annotations : List (Parsed .annotationUse)
  word : Token (.word "package")
  path : Path
  mark : Token (.sign ";")

/-- The tokens of the declaration. -/
def PackageDeclaration.leaves (d : PackageDeclaration) : List Leaf :=
  leavesOf d.annotations ++ d.word.leaf :: d.path.leaves ++ [d.mark.leaf]

/-- The phrases that may stand at the top of a text besides the declarations of packages and types. -/
def otherPhrases : List Phrase :=
  [.moduleDeclaration, .importDeclaration, .methodDeclaration, .expressionStatement,
    .labeledStatement, .ifStatement, .whileStatement, .forStatement, .forEachStatement, .block,
    .assertStatement, .doStatement, .breakStatement, .continueStatement, .returnStatement,
    .yieldStatement, .switch, .synchronizedStatement, .localVariables, .throwStatement,
    .tryStatement, .resourceTryStatement]

/-- A statement at the top of a text. -/
inductive Statement where
  | package (d : PackageDeclaration)
  | type (d : TypeDeclaration)
  | empty (mark : Token (.sign ";"))
  | other {p : Phrase} (known : p ∈ otherPhrases) (x : Parsed p)

namespace Statement

/-- The tokens of a statement. -/
def leaves : Statement → List Leaf
  | package d => d.leaves
  | type d => d.leaves
  | empty mark => [mark.leaf]
  | other _ x => x.tree.leaves

/-- The type that a statement declares. -/
def declared? (text : Array Char) : Statement → Option Declaration
  | type d => some (d.declared text)
  | _ => none

/-- The package that a statement names. -/
def package? (text : Array Char) : Statement → Option String
  | package d => some (d.path.shown text)
  | _ => none

/-- The statement is what the tree was read as: the declaration of a package or of a type of its
kind, a mark, or another phrase. Rules that only hold a statement do not count. -/
inductive Of : Statement → Tree → Prop where
  | package (x : Parsed .packageDeclaration) {d : PackageDeclaration}
      (tokens : d.leaves = x.tree.leaves) : Of (.package d) x.tree
  | type {p : Phrase} (x : Parsed p) {d : TypeDeclaration} (kind : kindOf? p = some d.kind)
      (tokens : d.leaves = x.tree.leaves) : Of (.type d) x.tree
  | empty (mark : Token (.sign ";")) : Of (.empty mark) mark.tree
  | other {p : Phrase} (known : p ∈ otherPhrases) (x : Parsed p) : Of (.other known x) x.tree
  | inside {p : Phrase} (holder : p ∈ [.topStatement, .statement, .declaration]) (x : Parsed p)
      {tree : Tree} (only : x.tree.children = [tree]) {s : Statement} (h : Of s tree) : Of s x.tree

theorem Of.leaves {s : Statement} {tree : Tree} (h : s.Of tree) :
  s.leaves = tree.leaves
  := by
  induction h with
  | package x tokens => exact tokens
  | type x kind tokens => exact tokens
  | empty mark => exact (leaves_token mark).symm
  | other known x => rfl
  | inside holder x only h ih =>
    rw [leaves_parsed, only, Tree.leavesAll, Tree.leavesAll, List.append_nil, ih]

theorem flatMap_leaves {statements : List Statement} {trees : List Tree}
    (h : List.Forall₂ Of statements trees) :
  statements.flatMap leaves = Tree.leavesAll trees
  := by
  induction h with
  | nil => rfl
  | cons first others ih => rw [List.flatMap_cons, first.leaves, ih, Tree.leavesAll]

end Statement

/-- The tree of a text is the repetition of the statements. -/
def MadeOf (tree : Tree) (statements : List Statement) : Prop :=
  ∃ repetition rows, tree.children = [repetition]
    ∧ Repeats (numbering.symbol (.repeated (.named .topStatement))) repetition rows
    ∧ List.Forall₂ Statement.Of statements rows.flatten

theorem MadeOf.leaves {tree : Tree} {statements : List Statement} (h : MadeOf tree statements) :
  statements.flatMap Statement.leaves = tree.leaves
  := by
  obtain ⟨repetition, rows, only, repeats, of⟩ := h
  have below : tree.leaves = repetition.leaves := by
    cases tree with
    | leaf token start stop => cases only
    | node rule start stop children =>
      obtain rfl : children = [repetition] := only
      rw [Tree.leaves, Tree.leavesAll, Tree.leavesAll, List.append_nil]
  rw [below, repeats.leaves, Statement.flatMap_leaves of]

/-! ### Paths -/

section Paths

theorem exists_softWord (x : Parsed .softWord) :
  ∃ word ∈ softWords, ∃ token : Token (.word word), x.tree.children = [token.tree]
  := by
  have spelled := x.spelled
  simp only [Phrase.form, spelled_one, spelled_none, or_false, spelled_ranked, Form.word,
    spelled_token] at spelled
  obtain spelled | ⟨token, children⟩ := spelled
  · obtain ⟨word, known, token, children⟩ := spelled_oneWord spelled
    exact ⟨word, List.mem_append_left ["yield"] known, token, children⟩
  · exact ⟨"yield", by decide, token, children⟩

/-- The trees that may stand for a path. -/
inductive IsPath : Tree → Prop where
  | plain (name : Token .identifier) : IsPath name.tree
  | soft (word : Parsed .softWord) : IsPath word.tree
  | qualified (name : Parsed .qualifiedName) : IsPath name.tree

theorem spelled_path {trees : List Tree} (h : Spelled Form.path trees) :
  ∃ tree, IsPath tree ∧ trees = [tree]
  := by
  simp only [Form.path, Form.identifier, spelled_one, spelled_none, or_false, spelled_token,
    spelled_named] at h
  obtain ⟨x, rfl⟩ | ⟨x, rfl⟩ | ⟨x, rfl⟩ := h
  · exact ⟨_, .plain x, rfl⟩
  · exact ⟨_, .soft x, rfl⟩
  · exact ⟨_, .qualified x, rfl⟩

theorem Path.exists_of_tree (tree : Tree) (h : IsPath tree) :
  ∃ p : Path, p.leaves = tree.leaves
  := by
  cases h with
  | plain name => exact ⟨⟨.plain name, []⟩, (leaves_token name).symm⟩
  | soft word =>
    obtain ⟨w, known, token, children⟩ := exists_softWord word
    refine ⟨⟨.soft w known token, []⟩, ?_⟩
    rw [leaves_parsed, children, Tree.leavesAll, Tree.leavesAll, leaves_token]
    rfl
  | qualified name =>
    have spelled := name.spelled
    simp only [Phrase.form, Form.sign, Form.identifier, spelled_cons, spelled_nil,
      spelled_token] at spelled
    obtain ⟨_, _, path, ⟨_, _, ⟨dot, rfl⟩, ⟨_, _, ⟨last, rfl⟩, rfl, rfl⟩, rfl⟩, children⟩ := spelled
    obtain ⟨inner, isPath, rfl⟩ := spelled_path path
    have smaller : sizeOf inner < sizeOf name.tree := sizeOf_child (by simp [children])
    obtain ⟨p, leaves⟩ := exists_of_tree inner isPath
    refine ⟨⟨p.first, p.more ++ [(dot, last)]⟩, ?_⟩
    rw [leaves_parsed, children]
    simp [Tree.leavesAll, leaves_token, ← leaves, Path.leaves]
  termination_by sizeOf tree

theorem Path.getLast?_leaves (p : Path) :
  p.leaves.getLast?.map Leaf.stop = some p.stop
  := by
  obtain empty | ⟨before, ⟨dot, name⟩, more⟩ := List.eq_nil_or_concat' p.more
  · simp [Path.leaves, Path.stop, empty]
  · have leaves : p.leaves = p.first.leaf :: (before.flatMap fun (dot, name) => [dot.leaf, name.leaf])
        ++ [dot.leaf] ++ [name.leaf] := by
      simp [Path.leaves, more]
    rw [leaves, List.getLast?_concat, Path.stop, more, List.map_append, List.map_singleton,
      List.getLast?_concat]
    rfl

theorem IsPath.derived {tree : Tree} (h : IsPath tree) :
  Derives grammar tree
  := by
  cases h with
  | plain name => apply Derives.leaf
  | soft word => apply word.derived
  | qualified name => apply name.derived

/-- The characters that the tree of a path covers. -/
theorem IsPath.covered {tree : Tree} (h : IsPath tree) {p : Path} (leaves : p.leaves = tree.leaves)
    (text : Array Char) :
  covered text tree = (text.extract p.first.leaf.start p.stop).toList
  := by
  have start := h.derived.head?_leaves
  have stop := h.derived.getLast?_leaves
  rw [← leaves] at start stop
  rw [p.getLast?_leaves] at stop
  rw [Java.covered, ← Option.some.inj start, ← Option.some.inj stop]

theorem IsPath.unwrap {tree : Tree} (h : IsPath tree) :
  unwrap tree = [tree]
  := by
  cases h with
  | plain name => apply unwrap_token
  | soft word => apply unwrap_phrase word rfl
  | qualified name => apply unwrap_phrase name rfl

/-- The tree may give the name of a package. -/
def isPackageName (tree : Tree) : Bool :=
  isName tree || tree.isNode unitRules.softWord || tree.isNode unitRules.qualifiedName

theorem isPackageName_token {t : Terminal} (x : Token t) :
  isPackageName x.tree = decide (t = .identifier)
  := by
  rw [isPackageName, isName_token, isNode_token, isNode_token, Bool.or_false, Bool.or_false]

theorem isPackageName_parsed {p : Phrase} (x : Parsed p) :
  isPackageName x.tree = decide (p = .softWord ∨ p = .qualifiedName)
  := by
  have soft : unitRules.softWord = ruleNumber .softWord := rfl
  have qualified : unitRules.qualifiedName = ruleNumber .qualifiedName := rfl
  rw [isPackageName, isName_parsed, soft, qualified, isNode_parsed, isNode_parsed, Bool.false_or,
    Bool.decide_or]

theorem IsPath.isPackageName {tree : Tree} (h : IsPath tree) :
  isPackageName tree = true
  := by
  cases h with
  | plain name => rw [isPackageName_token, decide_eq_true rfl]
  | soft word => rw [isPackageName_parsed, decide_eq_true (.inl rfl)]
  | qualified name => rw [isPackageName_parsed, decide_eq_true (.inr rfl)]

end Paths

/-! ### Declarations of packages -/

section Packages

variable (text : Array Char)

/-- Any number of annotations. -/
theorem spelled_annotations {trees : List Tree} (h : Spelled Form.annotations trees) :
  ∃ annotations : List (Parsed .annotationUse), Tree.leavesAll trees = leavesOf annotations
    ∧ unwrapAll trees = annotations.map Parsed.tree
  := by
  obtain h | rfl := spelled_opt.mp h
  · obtain ⟨tree, rows, rfl, repeats, _, spelled⟩ := spelled_many1 annotationUse_repeated h
    obtain ⟨annotations, same⟩ := exists_parsed spelled
    refine ⟨annotations, ?_, ?_⟩
    · rw [Tree.leavesAll, Tree.leavesAll, List.append_nil, repeats.leaves, same, leavesAll_parsed]
    · rw [unwrapAll, unwrapAll, List.append_nil, unwrap_repeats repeats, same,
        unwrapAll_parsed annotations rfl]
  · exact ⟨[], rfl, rfl⟩

/-- A declaration of a package is read with the name that its path shows. -/
theorem PackageDeclaration.exists_of_parsed (x : Parsed .packageDeclaration) :
  ∃ d : PackageDeclaration, d.leaves = x.tree.leaves
    ∧ packageName text x.tree = some (d.path.shown text)
  := by
  have spelled := x.spelled
  simp only [Phrase.form, Form.word, Form.sign, spelled_cons, spelled_nil, spelled_token] at spelled
  obtain ⟨_, _, annotations, ⟨_, _, ⟨word, rfl⟩, ⟨_, _, path, ⟨_, _, ⟨mark, rfl⟩, rfl, rfl⟩, rfl⟩,
    rfl⟩, children⟩ := spelled
  obtain ⟨annotations, annotationLeaves, annotationTrees⟩ := spelled_annotations annotations
  obtain ⟨tree, isPath, rfl⟩ := spelled_path path
  obtain ⟨path, leaves⟩ := Path.exists_of_tree tree isPath
  have below : parts x.tree = annotations.map Parsed.tree ++ [word.tree, tree, mark.tree] := by
    rw [parts, children, unwrapAll_append, annotationTrees]
    simp [unwrapAll, isPath.unwrap]
  have found : (parts x.tree).find? isPackageName = some tree := by
    have before : (annotations.map Parsed.tree).find? isPackageName = none := by
      simp [isPackageName_parsed]
    have notWord : ¬ isPackageName word.tree = true := by
      rw [isPackageName_token]
      decide
    rw [below, List.find?_append, before, Option.none_or, List.find?_cons_of_neg notWord,
      List.find?_cons_of_pos isPath.isPackageName]
  refine ⟨⟨annotations, word, path, mark⟩, ?_, ?_⟩
  · rw [leaves_parsed, children]
    simp [PackageDeclaration.leaves, Tree.leavesAll, leaves_token, annotationLeaves, leaves]
  · have name : packageName text x.tree = ((parts x.tree).find? isPackageName).map fun t =>
        String.ofList ((covered text t).filter fun c => !Text.isBlank c) := rfl
    rw [name, found, Option.map_some, isPath.covered leaves, Path.shown]

end Packages

/-! ### Statements -/

section Statements

variable (text : Array Char)

/-- The statement is what the tree was read as, and what it declares is what is taken from the tree. -/
structure Statement.Reads (s : Statement) (tree : Tree) : Prop where
  of : s.Of tree
  declared : (unwrap tree).filterMap (declarationOf? text) = (s.declared? text).toList
  package : ((unwrap tree).filter (·.isNode unitRules.package)).map (packageName text)
    = (s.package? text).toList.map some

theorem isNode_package {p : Phrase} (x : Parsed p) :
  x.tree.isNode unitRules.package = decide (p = .packageDeclaration)
  := by
  have number : unitRules.package = ruleNumber .packageDeclaration := rfl
  rw [number, isNode_parsed]

theorem Statement.exists_of_token (mark : Token (.sign ";")) :
  ∃ s : Statement, s.Reads text mark.tree
  := by
  refine ⟨.empty mark, .empty mark, ?_, ?_⟩
  · rw [unwrap_token, List.filterMap_cons_none rfl]
    rfl
  · rw [unwrap_token, List.filter_cons_of_neg (by simp [isNode_token])]
    rfl

theorem Statement.exists_of_package (x : Parsed .packageDeclaration) :
  ∃ s : Statement, s.Reads text x.tree
  := by
  obtain ⟨d, leaves, name⟩ := PackageDeclaration.exists_of_parsed text x
  refine ⟨.package d, .package x leaves, ?_, ?_⟩
  · rw [unwrap_phrase x rfl, List.filterMap_cons_none (declarationOf?_parsed text x)]
    rfl
  · rw [unwrap_phrase x rfl, List.filter_cons_of_pos (by simp [isNode_package]), List.filter_nil,
      List.map_singleton, name]
    rfl

/-- A tree that declares no package is not taken for one. -/
theorem filter_package {p : Phrase} (x : Parsed p) (h : p ≠ .packageDeclaration) :
  [x.tree].filter (·.isNode unitRules.package) = []
  := List.filter_cons_of_neg (by simp [isNode_package, h])

theorem Statement.exists_of_type {p : Phrase} (x : Parsed p) {kind : TypeKind}
    (h : kindOf? p = some kind) :
  ∃ s : Statement, s.Reads text x.tree
  := by
  have proper : isWrapperPhrase p = false ∧ p ≠ .packageDeclaration := by
    cases p <;> cases h <;> exact ⟨rfl, nofun⟩
  obtain ⟨d, isKind, leaves, declared⟩ := TypeDeclaration.exists_of_parsed text x h
  refine ⟨.type d, .type x isKind leaves, ?_, ?_⟩
  · rw [unwrap_phrase x proper.1, List.filterMap_cons_some declared]
    rfl
  · rw [unwrap_phrase x proper.1, filter_package x proper.2]
    rfl

theorem Statement.exists_of_other {p : Phrase} (x : Parsed p) (h : p ∈ otherPhrases) :
  ∃ s : Statement, s.Reads text x.tree
  := by
  have proper : ∀ p ∈ otherPhrases, isWrapperPhrase p = false ∧ p ≠ .packageDeclaration
      ∧ kindOf? p = none := by decide
  obtain ⟨notWrapper, notPackage, notType⟩ := proper p h
  have undeclared : declarationOf? text x.tree = none := by
    rw [declarationOf?_parsed, notType, Option.bind_none]
  refine ⟨.other h x, .other h x, ?_, ?_⟩
  · rw [unwrap_phrase x notWrapper, List.filterMap_cons_none undeclared]
    rfl
  · rw [unwrap_phrase x notWrapper, filter_package x notPackage]
    rfl

/-- What only holds a statement is read as that statement. -/
theorem Statement.Reads.inside {s : Statement} {tree : Tree} (h : s.Reads text tree) {p : Phrase}
    (x : Parsed p) (holder : p ∈ [.topStatement, .statement, .declaration])
    (only : x.tree.children = [tree]) :
  s.Reads text x.tree
  := by
  have wrappers : ∀ p ∈ [Phrase.topStatement, .statement, .declaration], isWrapperPhrase p = true := by
    decide
  have unwrapped : unwrap x.tree = unwrap tree := by
    rw [unwrap_wrapper x (wrappers p holder), only, unwrapAll, unwrapAll, List.append_nil]
  constructor
  · exact .inside holder x only h.of
  · rw [unwrapped, h.declared]
  · rw [unwrapped, h.package]

theorem spelled_choice {forms : List Form} {trees : List Tree} (h : Spelled (.choice forms) trees) :
  ∃ form ∈ forms, Spelled form trees
  := by
  induction forms with
  | nil => exact absurd h spelled_none
  | cons form forms ih =>
    obtain h | h := spelled_one.mp h
    · exact ⟨form, List.mem_cons_self, h⟩
    · obtain ⟨form', hf, spelled⟩ := ih h
      exact ⟨form', List.mem_cons_of_mem _ hf, spelled⟩

/-- The form is a mark or a phrase of a statement. -/
def isTop : Form → Bool
  | .token t => t == .sign ";"
  | .named p => p == .packageDeclaration || (kindOf? p).isSome || otherPhrases.contains p
  | _ => false

theorem Statement.exists_of_top {form : Form} (top : isTop form = true) {trees : List Tree}
    (h : Spelled form trees) :
  ∃ tree, trees = [tree] ∧ ∃ s : Statement, s.Reads text tree
  := by
  cases form with
  | token t =>
    obtain ⟨token, rfl⟩ := spelled_token.mp h
    obtain rfl : t = .sign ";" := by simpa [isTop] using top
    exact ⟨_, rfl, exists_of_token text token⟩
  | named p =>
    obtain ⟨x, rfl⟩ := spelled_named.mp h
    rw [isTop, Bool.or_eq_true, Bool.or_eq_true, beq_iff_eq, Option.isSome_iff_exists,
      List.contains_iff_mem] at top
    obtain (rfl | ⟨kind, isType⟩) | isOther := top
    · exact ⟨_, rfl, exists_of_package text x⟩
    · exact ⟨_, rfl, exists_of_type text x isType⟩
    · exact ⟨_, rfl, exists_of_other text x isOther⟩
  | _ => contradiction

theorem Statement.exists_of_declaration (x : Parsed .declaration) :
  ∃ s : Statement, s.Reads text x.tree
  := by
  have spelled := x.spelled
  simp only [Phrase.form, spelled_ranked] at spelled
  obtain ⟨form, hf, spelled⟩ := spelled_choice spelled
  have top : isTop form = true := List.all_eq_true.mp rfl form hf
  obtain ⟨tree, children, s, reads⟩ := exists_of_top text top spelled
  exact ⟨s, reads.inside text x (by decide) children⟩

theorem Statement.exists_of_statement (x : Parsed .statement) :
  ∃ s : Statement, s.Reads text x.tree
  := by
  obtain ⟨form, hf, spelled⟩ := spelled_choice x.spelled
  obtain rfl | hf := List.mem_cons.mp hf
  · obtain ⟨y, children⟩ := spelled_named.mp spelled
    obtain ⟨s, reads⟩ := exists_of_declaration text y
    exact ⟨s, reads.inside text x (by decide) children⟩
  · have top : isTop form = true := List.all_eq_true.mp rfl form hf
    obtain ⟨tree, children, s, reads⟩ := exists_of_top text top spelled
    exact ⟨s, reads.inside text x (by decide) children⟩

theorem Statement.exists_of_topStatement (x : Parsed .topStatement) :
  ∃ s : Statement, s.Reads text x.tree
  := by
  have spelled := x.spelled
  simp only [Phrase.form, spelled_one, spelled_none, spelled_named, or_false] at spelled
  obtain ⟨y, children⟩ | ⟨y, children⟩ := spelled
  · obtain ⟨s, reads⟩ := exists_of_statement text y
    exact ⟨s, reads.inside text x (by decide) children⟩
  · obtain ⟨s, reads⟩ := exists_of_other text y (by decide)
    exact ⟨s, reads.inside text x (by decide) children⟩

/-- What is kept of statements: the package that is named last, and the declared types. -/
def Statement.unit (statements : List Statement) : ParsedUnit where
  package := (statements.filterMap (Statement.package? text)).getLast?
  types := statements.filterMap (Statement.declared? text)

theorem Statement.exists_of_trees (xs : List (Parsed .topStatement)) :
  ∃ statements : List Statement, List.Forall₂ Statement.Of statements (xs.map Parsed.tree)
    ∧ (unwrapAll (xs.map Parsed.tree)).filterMap (declarationOf? text)
      = statements.filterMap (Statement.declared? text)
    ∧ ((unwrapAll (xs.map Parsed.tree)).filter (·.isNode unitRules.package)).map (packageName text)
      = (statements.filterMap (Statement.package? text)).map some
  := by
  induction xs with
  | nil => exact ⟨[], .nil, rfl, rfl⟩
  | cons x xs ih =>
    obtain ⟨s, reads⟩ := exists_of_topStatement text x
    obtain ⟨statements, of, declared, package⟩ := ih
    refine ⟨s :: statements, .cons reads.of of, ?_, ?_⟩
    · rw [List.map_cons, unwrapAll, List.filterMap_append, reads.declared, declared,
        filterMap_cons_toList]
    · rw [List.map_cons, unwrapAll, List.filter_append, List.map_append, reads.package, package,
        filterMap_cons_toList, List.map_append]

theorem topStatement_repeated :
  .named .topStatement ∈ numbering.repeated
  := mem_repeated .text List.mem_cons_self

/-- What is kept of a text is what its statements declare. -/
theorem exists_statements (x : Parsed .text) :
  ∃ statements : List Statement, MadeOf x.tree statements
    ∧ unitOf text x.tree = Statement.unit text statements
  := by
  have spelled := x.spelled
  obtain ⟨tree, rows, children, repeats, _, rowsSpelled⟩ := spelled_many1 topStatement_repeated spelled
  obtain ⟨xs, same⟩ := exists_parsed rowsSpelled
  obtain ⟨statements, of, declared, package⟩ := Statement.exists_of_trees text xs
  have unwrapped : unwrap x.tree = unwrapAll (xs.map Parsed.tree) := by
    rw [unwrap_wrapper x rfl, children, unwrapAll, unwrapAll, List.append_nil,
      unwrap_repeats repeats, same]
  refine ⟨statements, ⟨tree, rows, children, repeats, same ▸ of⟩, ?_⟩
  have joined : ∀ o : Option String, (o.map some).join = o := by
    rintro (_ | _) <;> rfl
  rw [unitOf, unwrapped, declared, package, List.getLast?_map, joined, Statement.unit]

end Statements

/-! ### Texts -/

/-- The text is made of the statements: it is only layout and there are none, or it was read as a
tree that is made of them, whose tokens are found one behind the other from the start of the text to
its end. -/
inductive Written (source : String) : List Statement → Prop where
  | layout
      (only : layoutLength 0 (source.toList.drop (markLength source.toList))
        = (source.toList.drop (markLength source.toList)).length) :
      Written source []
  | tree {statements : List Statement} {tree : Tree}
      (read : tree ∈ language.read (markLength source.toList)
        (source.toList.drop (markLength source.toList)))
      (reading : Reading language source.toList (markLength source.toList) tree)
      (made : MadeOf tree statements) :
      Written source statements

theorem leastTree_mem (tree : Tree) (trees : List Tree) :
  leastTree tree trees ∈ tree :: trees
  := by
  induction trees generalizing tree with
  | nil => exact List.mem_cons_self
  | cons other trees ih =>
    rw [leastTree]
    split
    · exact List.mem_cons_of_mem _ (ih other)
    · obtain h | h := List.mem_cons.mp (ih tree)
      · rw [h]
        apply List.mem_cons_self
      · exact List.mem_cons_of_mem _ (List.mem_cons_of_mem _ h)

theorem ruleNumber_text :
  ruleNumber .text = 0
  := by
  rw [ruleNumber_eq, names_numbering]
  rfl

/-- What a text holds is what the statements declare that it is made of. -/
theorem exists_written {source : String} {unit : ParsedUnit} (h : parseUnit source = .ok unit) :
  ∃ statements, Written source statements ∧ unit = Statement.unit source.toList.toArray statements
  := by
  unfold parseUnit at h
  dsimp only at h
  split at h
  · rename_i only
    obtain rfl := Except.ok.inj h
    exact ⟨[], .layout (beq_iff_eq.mp only), rfl⟩
  · split at h
    · rename_i tree trees read
      obtain rfl := Except.ok.inj h
      have mem := leastTree_mem tree trees
      rw [← read] at mem
      have reading := language.reading_of_mem_read language_lawful mem
      have symbol : (leastTree tree trees).symbol = .rule (ruleNumber .text) := by
        rw [reading.whole, ruleNumber_text]
      obtain ⟨statements, made, same⟩ := exists_statements source.toList.toArray
        ⟨leastTree tree trees, reading.derived, symbol⟩
      exact ⟨statements, .tree mem reading made, same⟩
    · contradiction

/-- A text that is not read has a syntax error. -/
theorem eq_syntaxError {source : String} {e : Error} (h : parseUnit source = .error e) :
  ∃ offset, e = .parse none (syntaxError source.toList offset)
  := by
  unfold parseUnit at h
  dsimp only at h
  split at h
  · contradiction
  · split at h
    · contradiction
    · exact ⟨_, (Except.error.inj h).symm⟩

/-- The name of every written type is its simple name. The types of a text are those that its
statements declare, in the order of the text: a statement that was read as the declaration of a type
declares it with the simple names of the types that its clauses list, and the others declare none.
Else the text has a syntax error. -/
theorem parseUnit_keeps_simple_names (source : String) :
  (∀ type : Parsed .type, ∃ w : WrittenType, w.leaves = type.tree.leaves
    ∧ typeName? source.toList.toArray type.tree = w.simpleName? source.toList.toArray)
    ∧ match parseUnit source with
      | .ok unit => ∃ statements, Written source statements
          ∧ unit.types = statements.filterMap (Statement.declared? source.toList.toArray)
      | .error e => ∃ offset, e = .parse none (syntaxError source.toList offset)
  := by
  constructor
  · intro type
    obtain ⟨w, tree, leaves, _, unwrapped, name⟩ :=
      WrittenType.exists_of_type source.toList.toArray type
    refine ⟨w, leaves, ?_⟩
    rw [typeName?_type type unwrapped, name]
  · split
    · rename_i unit h
      obtain ⟨statements, written, rfl⟩ := exists_written h
      exact ⟨statements, written, rfl⟩
    · rename_i e h
      apply eq_syntaxError h

end SourceAtlas.Java
