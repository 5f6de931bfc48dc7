import SourceAtlas.Declaration
import SourceAtlas.Error
import SourceAtlas.Java.Fault
import SourceAtlas.Text.Blank

/-!
# Reading a source text

Of a text the last package declaration and the type declarations at the top are kept, and of a
type its kind, its name and the names of the types that it inherits from. The name of a type is
the last name of what is written, without its arguments.
-/

namespace SourceAtlas.Java

open Parsing (Tree Language)

/-- The number of the rule of a phrase. -/
@[irreducible]
def ruleNumber (phrase : Phrase) : Nat :=
  grammar.ruleNamed phrase

/-- The numbers of the rules that are told apart here. -/
structure UnitRules where
  /-- The rules that only hold one of several others. -/
  wrappers : List Nat :=
    [Phrase.text, .topStatement, .statement, .declaration, .type, .plainType].map ruleNumber
  package : Nat := ruleNumber .packageDeclaration
  qualifiedName : Nat := ruleNumber .qualifiedName
  softWord : Nat := ruleNumber .softWord
  kinds : List (Nat × TypeKind) := [
    (ruleNumber .classDeclaration, .classType),
    (ruleNumber .interfaceDeclaration, .interface),
    (ruleNumber .enumDeclaration, .enum),
    (ruleNumber .recordDeclaration, .record),
    (ruleNumber .annotationDeclaration, .annotationType)]
  extending : List Nat := [Phrase.superclass, .extendsClause].map ruleNumber
  implementing : Nat := ruleNumber .implementsClause
  typeList : Nat := ruleNumber .typeList
  appliedType : Nat := ruleNumber .appliedType
  /-- The types whose last part has their name. -/
  lastNamed : List Nat := [Phrase.qualifiedType, .annotatedType].map ruleNumber
  /-- The number of the first repetition. -/
  repetition : Nat := grammar.names.size

/-- The rules that are told apart here. -/
def unitRules : UnitRules := {}

/-- The rule is a repetition or only holds one of several others. -/
def isWrapper (rule : Nat) : Bool :=
  unitRules.repetition ≤ rule || unitRules.wrappers.contains rule

mutual

/-- The parts of a tree without the rules that only hold others. -/
def unwrap : Tree → List Tree
  | .node rule start stop children =>
    if isWrapper rule then unwrapAll children else [.node rule start stop children]
  | .leaf token start stop => [.leaf token start stop]

/-- The parts of several trees. -/
def unwrapAll : List Tree → List Tree
  | [] => []
  | tree :: trees => unwrap tree ++ unwrapAll trees

end

/-- The parts of a tree below it. -/
def parts (tree : Tree) : List Tree :=
  unwrapAll tree.children

/-- The characters that a tree covers. -/
def covered (text : Array Char) (tree : Tree) : List Char :=
  (text.extract tree.start tree.stop).toList

/-- The tree is a plain name. -/
def isName (tree : Tree) : Bool :=
  tree.isLeaf openTokens.identifier

/-- The name that a package declaration gives, without blanks. -/
def packageName (text : Array Char) (tree : Tree) : Option String :=
  ((parts tree).find? fun t =>
      isName t || t.isNode unitRules.softWord || t.isNode unitRules.qualifiedName).map fun t =>
    String.ofList ((covered text t).filter fun c => !Text.isBlank c)

mutual

/-- The name of a written type. Primitive types and arrays have none. -/
def typeName? (text : Array Char) : Tree → Option String
  | .leaf token start stop =>
    if token == openTokens.identifier then
      some (String.ofList (text.extract start stop).toList)
    else none
  | .node rule _ _ children =>
    if rule == unitRules.appliedType then firstTypeName? text children
    else if unitRules.lastNamed.contains rule || isWrapper rule then lastTypeName? text children
    else none

/-- The name of the first of several types. -/
def firstTypeName? (text : Array Char) : List Tree → Option String
  | [] => none
  | tree :: _ => typeName? text tree

/-- The name of the last of several types. -/
def lastTypeName? (text : Array Char) : List Tree → Option String
  | [] => none
  | [tree] => typeName? text tree
  | _ :: trees => lastTypeName? text trees

end

/-- The parts of a list of types, or the part alone. -/
def listed (part : Tree) : List Tree :=
  if part.isNode unitRules.typeList then parts part else [part]

/-- The names of the types that a clause lists. -/
def typeNames (text : Array Char) (clause : Tree) : List String :=
  ((parts clause).flatMap listed).filterMap (typeName? text)

/-- The declaration of a type of the given kind that has the given parts. -/
def declarationFrom? (text : Array Char) (kind : TypeKind) (parts : List Tree) :
    Option Declaration :=
  (parts.find? isName).map fun name =>
    { name := String.ofList (covered text name)
      kind := kind
      extending := (parts.filter fun t => unitRules.extending.any t.isNode).flatMap
        (typeNames text)
      implementing := (parts.filter (·.isNode unitRules.implementing)).flatMap
        (typeNames text) }

/-- The declaration that a tree stands for, if it is one of a type. -/
def declarationOf? (text : Array Char) : Tree → Option Declaration
  | .leaf _ _ _ => none
  | .node rule start stop children =>
    (unitRules.kinds.lookup rule).bind fun kind =>
      declarationFrom? text kind (parts (.node rule start stop children))

/-- What is kept of a text that was read. -/
def unitOf (text : Array Char) (tree : Tree) : ParsedUnit :=
  let statements := unwrap tree
  let packages := statements.filter (·.isNode unitRules.package)
  { package := (packages.map (packageName text)).getLast?.join
    types := statements.filterMap (declarationOf? text) }

/-- The line and the column of a place in a text. Both count from one, and columns count
bytes. -/
def lineAndColumn (text : List Char) (offset : Nat) : Nat × Nat :=
  let before := text.take offset
  (before.count '\n' + 1,
    (String.ofList (before.reverse.takeWhile (· != '\n'))).utf8ByteSize + 1)

/-- The words for a syntax error, with its place if it has one. -/
def syntaxError (text : List Char) : Option Nat → String
  | some offset =>
    let (line, column) := lineAndColumn text offset
    "syntax error at line " ++ toString line ++ ", column " ++ toString column
  | none => "syntax error"

/-- A byte order mark at the very start of a text is passed over. -/
def markLength : List Char → Nat
  | c :: _ => if c.toNat == 0xFEFF then 1 else 0
  | [] => 0

/-- The first of several trees in their order. -/
def leastTree : Tree → List Tree → Tree
  | tree, [] => tree
  | tree, other :: trees =>
    leastTree (if tree.order other == .gt then other else tree) trees

/-- The unit that a text holds. -/
def parseUnit (source : String) : Except Error ParsedUnit :=
  let text := source.toList
  let start := markLength text
  let body := text.drop start
  if layoutLength 0 body == body.length then .ok {}
  else
    match language.read start body with
    | tree :: trees => .ok (unitOf text.toArray (leastTree tree trees))
    | [] => .error (.parse none (syntaxError text (guide.firstFault start text)))

end SourceAtlas.Java
