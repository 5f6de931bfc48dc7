import SourceAtlas.Java.Phrase
import SourceAtlas.Parsing.Grammar

/-!
# The grammar of source texts

A text is a row of statements and methods. The rules rank the operators and tell which readings
are meant where several are possible; where they do not tell, all of them are followed.
-/

namespace SourceAtlas.Java

open Parsing (Side)
open Parsing.Rule (seq choice opt many many1 ranked separated1)
open Form

/-- The binary operators with their ranks. -/
def binaryOperators : List (String × Int) := [
  (">", 10), ("<", 10), (">=", 10), ("<=", 10), ("==", 9), ("!=", 9), ("&&", 5), ("||", 4),
  ("+", 12), ("-", 12), ("*", 13), ("/", 13), ("&", 8), ("|", 6), ("^", 7), ("%", 13),
  ("<<", 11), (">>", 11), (">>>", 11)]

/-- The operators that assign. -/
def assignmentOperators : List String :=
  ["=", "+=", "-=", "*=", "/=", "&=", "|=", "^=", "%=", "<<=", ">>=", ">>>="]

/-- The words that are modifiers. -/
def modifierWords : List String :=
  ["public", "protected", "private", "abstract", "static", "final", "strictfp", "default",
    "synchronized", "native", "transient", "volatile", "sealed"]

/-- A rule of a module that names a package and perhaps modules. -/
def packageDirective (first : String) : Form :=
  seq [word first, path, opt (seq [word "to", commas1 path]), sign ";"]

open Phrase in
/-- The rule of a phrase. -/
def Phrase.form : Phrase → Form
  | .text => many1 topStatement
  | .topStatement => choice [statement, methodDeclaration]
  -- literals
  | .literal => choice [.token .number, word "true", word "false", .token .character,
    string, word "null"]
  | .string => choice [plainString, textBlock]
  | .plainString => seq [sign "\"",
    many (choice [.token .fragment, .token .escape, embedded]), sign "\""]
  | .textBlock => seq [sign "\"\"\"",
    many (choice [blockText, blockEscape, embedded]), sign "\"\"\""]
  | .blockText => choice [.token .blockFragment, .token .blockQuote]
  | .embedded => seq [sign "\\\x7b", expression, sign "\x7d"]
  | .blockEscape => choice [.token .blockEscape, .token .escape]
  -- operators
  | .expression => choice [assignment, binary, typeTest, lambda, conditional, update, primary,
    unary, cast, switch]
  | .cast => ranked 14 none (choice [
    seq [sign "(", type, sign ")", expression],
    seq [sign "(", separated1 (.sign "&") type, sign ")",
      choice [primary, lambda]]])
  | .assignment => ranked 1 (some .right) (seq [
    choice [identifier, softWord, fieldAccess, arrayAccess],
    choice (assignmentOperators.map sign), expression])
  | .binary => choice (binaryOperators.map fun (operator, rank) =>
    ranked rank (some .left) (seq [expression, sign operator, expression]))
  | .typeTest => ranked 10 none (seq [expression, word "instanceof", opt (word "final"),
    choice [seq [type, opt anyName], recordPattern]])
  | .lambda => seq [
    choice [identifier, parameters, inferredParameters, softWord],
    sign "->", choice [expression, block]]
  | .inferredParameters => inParens [commas1 anyName]
  | .conditional => ranked 3 (some .right)
    (seq [expression, sign "?", expression, sign ":", expression])
  | .unary => choice (["+", "-", "!", "~"].map fun operator =>
    ranked 15 (some .left) (seq [sign operator, expression]))
  | .update => ranked 15 (some .left) (choice [
    seq [expression, sign "++"], seq [expression, sign "--"],
    seq [sign "++", expression], seq [sign "--", expression]])
  -- what can stand before a dot
  | .primary => choice [literal, classLiteral, word "this", identifier,
    softWord, parenthesized, objectCreation, fieldAccess,
    arrayAccess, methodCall, methodReference, arrayCreation,
    template]
  | .arrayCreation => ranked 0 (some .right) (seq [word "new", annotations, simpleType, choice [
    seq [many1 sizedDimension, opt dimensions],
    seq [dimensions, arrayInitializer]]])
  | .sizedDimension => seq [annotations, sign "[", expression, sign "]"]
  | .parenthesized => inParens [expression]
  | .classLiteral => seq [plainType, sign ".", word "class"]
  | .objectCreation => choice [newObject, seq [primary, sign ".", newObject]]
  | .newObject => ranked 0 (some .right) (seq [word "new",
    choice [seq [annotations, typeArguments, annotations], annotations],
    simpleType, arguments, opt classBody])
  | .fieldAccess => seq [choice [primary, word "super"], opt (seq [sign ".", word "super"]),
    sign ".", choice [identifier, softWord, word "this"]]
  | .template => seq [primary, sign ".", string]
  | .arrayAccess => seq [primary, sign "[", expression, sign "]"]
  | .methodCall => seq [
    choice [anyName, seq [choice [primary, word "super"], sign ".",
      opt (seq [word "super", sign "."]), opt typeArguments, anyName]],
    arguments]
  | .arguments => inParens [commas expression]
  | .methodReference => seq [choice [type, primary, word "super"], sign "::",
    opt typeArguments, choice [word "new", identifier]]
  | .typeArguments => seq [sign "<", commas (choice [type, wildcard]), sign ">"]
  | .wildcard => seq [annotations, sign "?", opt wildcardBound]
  | .wildcardBound => seq [oneWord ["extends", "super"], type]
  | .dimensions => ranked 0 (some .right) (many1 (seq [annotations, sign "[", sign "]"]))
  -- switches and patterns
  | .switch => seq [word "switch", parenthesized, switchBlock]
  | .switchBlock => inBraces [ choice [many1 switchGroup, many switchRule]]
  | .switchGroup => ranked 0 (some .left)
    (seq [many1 (seq [switchLabel, sign ":"]), many statement])
  | .switchRule => seq [switchLabel, sign "->", choice [expressionStatement, throwStatement, block]]
  | .switchLabel => choice [
    seq [word "case", choice [pattern, commas1 expression], opt guard],
    word "default"]
  | .pattern => choice [typePattern, recordPattern]
  | .typePattern => seq [plainType, anyName]
  | .recordPattern => seq [choice [identifier, softWord, appliedType], recordPatternBody]
  | .recordPatternBody => inParens [commas (choice [recordComponent, recordPattern])]
  | .recordComponent => choice [word "_", seq [plainType, anyName]]
  | .guard => seq [word "when", expression]
  -- statements
  | .statement => choice [declaration, expressionStatement, labeledStatement, ifStatement,
    whileStatement, forStatement, forEachStatement, block, sign ";", assertStatement,
    doStatement, breakStatement, continueStatement, returnStatement, yieldStatement, switch,
    synchronizedStatement, localVariables, throwStatement, tryStatement, resourceTryStatement]
  | .block => inBraces [many statement]
  | .expressionStatement => seq [expression, sign ";"]
  | .labeledStatement => seq [identifier, sign ":", statement]
  | .assertStatement => choice [
    seq [word "assert", expression, sign ";"],
    seq [word "assert", expression, sign ":", expression, sign ";"]]
  | .doStatement => seq [word "do", statement, word "while", parenthesized, sign ";"]
  | .breakStatement => seq [word "break", opt identifier, sign ";"]
  | .continueStatement => seq [word "continue", opt identifier, sign ";"]
  | .returnStatement => seq [word "return", opt expression, sign ";"]
  | .yieldStatement => seq [word "yield", expression, sign ";"]
  | .synchronizedStatement => seq [word "synchronized", parenthesized, block]
  | .throwStatement => seq [word "throw", expression, sign ";"]
  | .tryStatement => seq [word "try", block,
    choice [many1 catchClause,
      seq [many catchClause, finallyClause]]]
  | .catchClause => seq [word "catch", sign "(", catchParameter, sign ")", block]
  | .catchParameter => seq [someModifiers, catchType, declaredName]
  | .catchType => separated1 (.sign "|") plainType
  | .finallyClause => seq [word "finally", block]
  | .resourceTryStatement => seq [word "try", resources, block, many catchClause, opt finallyClause]
  | .resources => inParens [separated1 (.sign ";") resource, opt (sign ";")]
  | .resource => choice [
    seq [someModifiers, plainType, declaredName, sign "=", expression],
    identifier, fieldAccess]
  | .ifStatement => ranked 0 (some .right) (seq [word "if", parenthesized,
    statement, opt (seq [word "else", statement])])
  | .whileStatement => seq [word "while", parenthesized, statement]
  | .forStatement => seq [word "for", sign "(",
    choice [localVariables, seq [commas expression, sign ";"]],
    opt expression, sign ";", commas expression, sign ")",
    statement]
  | .forEachStatement => seq [word "for", sign "(", someModifiers, plainType,
    declaredName, sign ":", expression, sign ")", statement]
  -- annotations
  | .annotationUse => choice [plainAnnotationUse, fullAnnotationUse]
  | .plainAnnotationUse => seq [sign "@", path]
  | .fullAnnotationUse => seq [sign "@", path, annotationArguments]
  | .annotationArguments => inParens [ choice [elementValue, commas elementPair]]
  | .elementPair => seq [anyName, sign "=", elementValue]
  | .elementValue => ranked 2 none (choice [expression, elementArray, annotationUse])
  | .elementArray => inBraces [commas elementValue, opt (sign ",")]
  -- modules, packages and imports
  | .declaration => ranked 2 none (choice [moduleDeclaration, packageDeclaration,
    importDeclaration, classDeclaration, recordDeclaration, interfaceDeclaration,
    annotationDeclaration, enumDeclaration])
  | .moduleDeclaration => seq [annotations, opt (word "open"), word "module", path, moduleBody]
  | .moduleBody => inBraces [many moduleDirective]
  | .moduleDirective => choice [requiresDirective, exportsDirective, opensDirective,
    usesDirective, providesDirective]
  | .requiresDirective => seq [word "requires", many requiresModifier, path, sign ";"]
  | .requiresModifier => oneWord ["transitive", "static"]
  | .exportsDirective => packageDirective "exports"
  | .opensDirective => packageDirective "opens"
  | .usesDirective => seq [word "uses", path, sign ";"]
  | .providesDirective => seq [word "provides", path, word "with", commas1 path, sign ";"]
  | .packageDeclaration => seq [annotations, word "package", path, sign ";"]
  | .importDeclaration => seq [word "import", opt (word "static"), path,
    opt (seq [sign ".", everything]), sign ";"]
  | .everything => sign "*"
  -- classes and enums
  | .enumDeclaration => seq [someModifiers, word "enum", identifier, opt implementsClause, enumBody]
  | .enumBody => inBraces [commas enumConstant, opt (sign ","), opt enumMembers]
  | .enumMembers => seq [sign ";", many member]
  | .enumConstant => seq [someModifiers, identifier, opt arguments, opt classBody]
  | .classDeclaration => seq [someModifiers, word "class", identifier, opt typeParameters,
    opt superclass, opt implementsClause, opt permitsClause,
    classBody]
  | .modifiers => many1 (choice [annotationUse, oneWord modifierWords, sign "non-sealed"])
  | .typeParameters => seq [sign "<", commas1 typeParameter, sign ">"]
  | .typeParameter => seq [annotations, identifier, opt typeBound]
  | .typeBound => seq [word "extends", separated1 (.sign "&") type]
  | .superclass => seq [word "extends", type]
  | .implementsClause => seq [word "implements", typeList]
  | .typeList => commas1 type
  | .permitsClause => seq [word "permits", typeList]
  | .classBody => inBraces [many member]
  | .staticInitializer => seq [word "static", block]
  | .constructorDeclaration => seq [someModifiers, constructorHeader,
    opt throwsClause, constructorBody]
  | .constructorHeader => seq [opt typeParameters, identifier, parameters]
  | .constructorBody => inBraces [opt constructorCall, many statement]
  | .constructorCall => seq [
    choice [seq [opt typeArguments, oneWord ["this", "super"]],
      seq [primary, sign ".", opt typeArguments, word "super"]],
    arguments, sign ";"]
  | .qualifiedName => seq [path, sign ".", identifier]
  -- fields, records, annotation types and interfaces
  | .fieldDeclaration => seq [someModifiers, plainType, declarators, sign ";"]
  | .recordDeclaration => seq [someModifiers, word "record", identifier,
    opt typeParameters, parameters, opt implementsClause,
    classBody]
  | .annotationDeclaration => seq [someModifiers, sign "@interface", identifier, annotationBody]
  | .annotationBody => inBraces [many (choice [annotationElement, constantDeclaration,
    classDeclaration, interfaceDeclaration, enumDeclaration, annotationDeclaration, sign ";"])]
  | .annotationElement => seq [someModifiers, plainType, anyName, sign "(", sign ")",
    opt dimensions, opt defaultValue, sign ";"]
  | .defaultValue => seq [word "default", elementValue]
  | .interfaceDeclaration => seq [someModifiers, word "interface", identifier,
    opt typeParameters, opt extendsClause, opt permitsClause,
    interfaceBody]
  | .extendsClause => seq [word "extends", typeList]
  | .interfaceBody => inBraces [many (choice [constantDeclaration, enumDeclaration,
    methodDeclaration, classDeclaration, interfaceDeclaration, recordDeclaration,
    annotationDeclaration, sign ";"])]
  | .constantDeclaration => seq [someModifiers, plainType, declarators, sign ";"]
  -- variables
  | .declarators => commas1 declarator
  | .declarator => seq [declaredName, opt (seq [sign "=", initializer])]
  | .declaredName => seq [choice [identifier, softWord, word "_"], opt dimensions]
  | .arrayInitializer => inBraces [commas initializer, opt (sign ",")]
  -- types
  | .type => choice [plainType, annotatedType]
  | .plainType => choice [simpleType, arrayType]
  | .annotatedType => seq [many1 annotationUse, plainType]
  | .qualifiedType => seq [choice [identifier, qualifiedType, appliedType],
    sign ".", annotations, identifier]
  | .appliedType => seq [choice [identifier, qualifiedType], typeArguments]
  | .arrayType => seq [plainType, dimensions]
  | .integralType => oneWord ["byte", "short", "int", "long", "char"]
  | .floatingType => oneWord ["float", "double"]
  -- methods
  | .methodHeader => seq [opt (seq [typeParameters, annotations]), plainType,
    methodName, opt throwsClause]
  | .methodName => seq [anyName, parameters, opt dimensions]
  | .parameters => inParens [choice [receiver,
    seq [opt (seq [receiver, sign ","]),
      commas (choice [parameter, variadicParameter])]]]
  | .parameter => seq [someModifiers, plainType, declaredName]
  | .receiver => seq [annotations, plainType, many (seq [identifier, sign "."]), word "this"]
  | .variadicParameter => seq [someModifiers, plainType, sign "...", annotations, declarator]
  | .throwsClause => seq [word "throws", commas1 type]
  | .localVariables => seq [someModifiers, plainType, declarators, sign ";"]
  | .methodDeclaration => seq [someModifiers, methodHeader, choice [block, sign ";"]]
  | .compactConstructor => seq [someModifiers, identifier, block]
  | .softWord => choice [
    ranked (-3) none (oneWord ["open", "module", "record", "with", "sealed"]), word "yield"]

/-- The grammar of the language. The word that opens a guard is looked for behind every type
test, also where no guard may stand. -/
@[irreducible]
def grammar : Parsing.Grammar Terminal Phrase :=
  .ofRules .finish (Phrase.all.map fun p => (p, p.form)) [(.typeTest, .word "when")]

end SourceAtlas.Java
