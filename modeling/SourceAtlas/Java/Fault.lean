import SourceAtlas.Java.Lexer
import SourceAtlas.Parsing.Repair.Search

/-!
# Faults of source texts

Where a text is faulty any token may stand. Escapes are then looked for outside of string literals
too, but only directly at the place; the text of string literals is not looked for.
-/

namespace SourceAtlas.Java

open Parsing (TokenSet Symbol Place Lexeme Automaton)
open Parsing.Repair (Guide)

/-- The tokens that stand in string literals only. -/
def textTokens : List Nat :=
  [openTokens.fragment, openTokens.escape, openTokens.blockFragment, openTokens.blockQuote,
    openTokens.blockEscape, openTokens.embedding]

/-- The tokens that may stand outside of string literals. -/
def plainTokens : TokenSet :=
  TokenSet.unionAll (((List.range grammar.tokens.size).filter fun n =>
    !textTokens.contains n).map TokenSet.single)

/-- The next token where any may stand. -/
def scanAny (p : Place) : Option Lexeme :=
  lexemeAt p openTokens.blockEscape (blockEscapeLength p.rest)
    <|> lexemeAt p openTokens.escape (escapeLength p.rest)
    <|> scanPlain plainTokens p

/-- The place behind blanks. -/
def skipBlanks (p : Place) : Place :=
  p.skip (p.rest.takeWhile isSpace).length

/-- The next comment, if nothing but blanks stands before it. -/
def comment? (p : Place) : Option Lexeme :=
  let p := skipBlanks p
  (commentLength p.rest).map fun n => ⟨grammar.tokens.size, p.offset, p.skip n⟩

/-- The tokens that are tried before the others. -/
def earlyTokens : List Terminal :=
  [.identifier, .number, .word "true", .word "false", .character, .sign "\"", .sign "\"\"\"",
    .fragment, .blockFragment, .blockQuote, .sign "\\\x7b", .sign "\x7d", .blockEscape, .escape]

/-- The tokens that are tried after the others. -/
def lateTokens : List Terminal :=
  ["void", "boolean", "byte", "short", "int", "long", "char", "float", "double"].map .word
    ++ [.sign "...", .word "throws"]
    ++ ["sealed", "public", "protected", "private", "abstract", "strictfp", "native", "transient",
      "volatile"].map .word
    ++ [.sign "non-sealed"]

/-- The tokens other than the end of the text, in the order in which they are tried. -/
def tokenOrder : List Nat :=
  let early := earlyTokens.map tokenNumber
  let late := lateTokens.map tokenNumber
  let others := (List.range grammar.tokens.size).filter fun n =>
    n != openTokens.finish && !early.contains n && !late.contains n
  early ++ others ++ late

/-- The phrases that only stand for one of several others, or are a part of another one. -/
def hiddenPhrases : List Phrase :=
  [.topStatement, .literal, .plainString, .textBlock, .blockEscape, .expression, .primary,
    .newObject, .wildcardBound, .statement, .declaredName, .annotationUse, .elementValue,
    .declaration, .moduleDirective, .constructorHeader, .defaultValue, .declarators, .type,
    .plainType, .methodHeader, .methodName, .softWord]

/-- The numbers of the rules of these phrases. -/
def hiddenRules : List Nat :=
  hiddenPhrases.map grammar.ruleNamed

/-- Tokens, each with one that it begins with and that may stand before the rest of it, so that
one can be mistaken for the other. -/
def clashingTokens : List (Terminal × Terminal) :=
  [(.sign "\"\"\"", .sign "\""), (.sign ">=", .sign ">"), (.sign ">>", .sign ">"),
    (.sign ">>=", .sign ">"), (.sign ">>>", .sign ">"), (.sign ">>>=", .sign ">"),
    (.sign "++", .sign "+"), (.sign "--", .sign "-"), (.sign "@interface", .sign "@"),
    (.sign "non-sealed", .identifier)]

/-- The rules in which a plain name is the name of a type, and not just any name. -/
def typeNamingRules : List Nat :=
  [Phrase.plainType, .qualifiedType, .appliedType, .typeParameter, .arrayCreation,
    .newObject].map grammar.ruleNamed

/-- The phrases whose parts have roles, with these parts. -/
def partsWithRoles : List (Phrase × List Phrase) :=
  [(.classDeclaration, [.typeParameters, .superclass, .implementsClause, .permitsClause]),
    (.recordDeclaration, [.typeParameters, .parameters, .implementsClause]),
    (.interfaceDeclaration, [.typeParameters, .permitsClause]),
    (.enumDeclaration, [.implementsClause]),
    (.enumConstant, [.arguments, .classBody]),
    (.annotationElement, [.plainType, .dimensions]),
    (.methodHeader, [.typeParameters, .plainType]),
    (.methodDeclaration, [.block]),
    (.typeTest, [.type, .recordPattern]),
    (.newObject, [.typeArguments, .arguments])]

/-- The rules whose parts have roles, with the rules of these parts. -/
def partRules : List (Nat × List Nat) :=
  partsWithRoles.map fun (phrase, parts) =>
    (grammar.ruleNamed phrase, parts.map grammar.ruleNamed)

/-- The role of a symbol in a rule: zero for most, one for the name of a type, and a number of its
own for every part that has a role. -/
def roleOf (rule : Nat) : Symbol → Nat
  | .token t => if t == openTokens.identifier && typeNamingRules.contains rule then 1 else 0
  | .rule r => if ((partRules.lookup rule).getD []).contains r then r + 2 else 0

/-- The merged states of the language. -/
def mergedStates : Thunk Automaton :=
  Thunk.mk fun _ => Automaton.merged grammar
    (clashingTokens.map fun (a, b) => (tokenNumber a, TokenSet.single (tokenNumber b))) roleOf

/-- How faulty source texts are read. -/
def guide : Guide where
  language := language
  scanAny := scanAny
  comment? := comment?
  skipBlanks := skipBlanks
  isVerbatim wanted := wanted.has openTokens.fragment || wanted.has openTokens.blockFragment
  order := tokenOrder
  hiddenTokens := TokenSet.unionAll
    ([openTokens.blockFragment, openTokens.blockQuote, openTokens.blockEscape].map
      TokenSet.single)
  hiddenRules rule := grammar.names.size ≤ rule || hiddenRules.contains rule
  merged := mergedStates

end SourceAtlas.Java
