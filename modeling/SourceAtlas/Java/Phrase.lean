import SourceAtlas.Parsing.Rule

/-!
# Terminals and phrases

The tokens of the language are words and signs with a fixed text, names, literals, and the
stretches of which string literals consist. The phrases are the parts of a text that have a rule.
Their order counts: of two ways to read a whole text the one is meant whose first different phrase
comes earlier.
-/

namespace SourceAtlas.Java

open Parsing (Rule)

/-- A token of the language. -/
inductive Terminal where
  /-- The end of the text. -/
  | finish
  | identifier
  | number
  | character
  /-- Characters of a string literal that stand for themselves. -/
  | fragment
  /-- A backslash and what it stands before in a string literal. -/
  | escape
  /-- Characters of a text block that stand for themselves. -/
  | blockFragment
  /-- A quote in a text block and what follows it. -/
  | blockQuote
  /-- A backslash in a text block before a character that it does not change elsewhere. -/
  | blockEscape
  | word (text : String)
  | sign (text : String)
  deriving DecidableEq, Repr

/-- A phrase of the language. -/
inductive Phrase where
  | text | topStatement
  | literal | string | plainString | textBlock | blockText | embedded | blockEscape
  | expression | cast | assignment | binary | typeTest | lambda | inferredParameters
  | conditional | unary | update
  | primary | arrayCreation | sizedDimension | parenthesized | classLiteral | objectCreation
  | newObject | fieldAccess | template | arrayAccess | methodCall | arguments | methodReference
  | typeArguments | wildcard | wildcardBound | dimensions
  | switch | switchBlock | switchGroup | switchRule | switchLabel | pattern | typePattern
  | recordPattern | recordPatternBody | recordComponent | guard
  | statement | block | expressionStatement | labeledStatement | assertStatement | doStatement
  | breakStatement | continueStatement | returnStatement | yieldStatement | synchronizedStatement
  | throwStatement | tryStatement | catchClause | catchParameter | catchType | finallyClause
  | resourceTryStatement | resources | resource | ifStatement | whileStatement | forStatement
  | forEachStatement
  | annotationUse | plainAnnotationUse | fullAnnotationUse | annotationArguments | elementPair
  | elementValue | elementArray
  | declaration | moduleDeclaration | moduleBody | moduleDirective | requiresDirective
  | requiresModifier | exportsDirective | opensDirective | usesDirective | providesDirective
  | packageDeclaration | importDeclaration | everything
  | enumDeclaration | enumBody | enumMembers | enumConstant | classDeclaration | modifiers
  | typeParameters | typeParameter | typeBound | superclass | implementsClause | typeList
  | permitsClause | classBody | staticInitializer | constructorDeclaration | constructorHeader
  | constructorBody | constructorCall | qualifiedName
  | fieldDeclaration | recordDeclaration | annotationDeclaration | annotationBody
  | annotationElement | defaultValue | interfaceDeclaration | extendsClause | interfaceBody
  | constantDeclaration
  | declarators | declarator | declaredName | arrayInitializer
  | type | plainType | annotatedType | qualifiedType | appliedType | arrayType | integralType
  | floatingType
  | methodHeader | methodName | parameters | parameter | receiver | variadicParameter
  | throwsClause | localVariables | methodDeclaration | compactConstructor | softWord
  deriving DecidableEq, Repr

/-- The phrases in their order. -/
def Phrase.all : List Phrase :=
  (List.range 144).map Phrase.ofNat

/-- What a rule of the language stands for. -/
abbrev Form := Rule Terminal Phrase

instance : Coe Phrase Form where
  coe := .named

namespace Form

/-- A word of the language. -/
def word (text : String) : Form := .token (.word text)

/-- A sign of the language. -/
def sign (text : String) : Form := .token (.sign text)

/-- One of several words. -/
def oneWord (words : List String) : Form := .choice (words.map word)

/-- A plain name. -/
def identifier : Form := .token .identifier

/-- A form one or more times with commas in between. -/
def commas1 (form : Form) : Form := .separated1 (.sign ",") form

/-- A form any number of times with commas in between. -/
def commas (form : Form) : Form := .separated (.sign ",") form

/-- Forms between round brackets. -/
def inParens (forms : List Form) : Form := .seq (sign "(" :: forms ++ [sign ")"])

/-- Forms between curly brackets. -/
def inBraces (forms : List Form) : Form := .seq (sign "\x7b" :: forms ++ [sign "\x7d"])

/-! ### Forms that occur in many rules -/

/-- A plain name, or a word that may be used as one in many places. -/
def anyName : Form := .choice [identifier, .named .softWord]

/-- A name, or several with dots in between. -/
def path : Form := .choice [identifier, .named .softWord, .named .qualifiedName]

/-- Annotations, if there are any. -/
def annotations : Form := .many (.named .annotationUse)

/-- Modifiers, if there are any. -/
def someModifiers : Form := .opt (.named .modifiers)

/-- A type without annotations and dimensions. -/
def simpleType : Form :=
  .choice [word "void", .named .integralType, .named .floatingType, word "boolean", identifier,
    .named .qualifiedType, .named .appliedType]

/-- The first value of a variable. -/
def initializer : Form := .choice [.named .expression, .named .arrayInitializer]

/-- A member of a class, an enum or a record. -/
def member : Form :=
  .choice [.named .fieldDeclaration, .named .recordDeclaration, .named .methodDeclaration,
    .named .compactConstructor, .named .classDeclaration, .named .interfaceDeclaration,
    .named .annotationDeclaration, .named .enumDeclaration, .named .block,
    .named .staticInitializer, .named .constructorDeclaration, sign ";"]

end Form

end SourceAtlas.Java
