import SourceAtlas.Java.Grammar
import SourceAtlas.Java.Layout
import SourceAtlas.Java.Letter
import SourceAtlas.Java.Literal
import SourceAtlas.Parsing.Run

/-!
# Looking for tokens

Which token stands at a place depends on the tokens that are wanted there: of those that fit, the
longest is meant. A word of the language is such a word only where it is wanted, and a plain name
elsewhere. Between tokens there may be layout; inside string literals there is none, but a comment
at the start of a stretch of a text block is passed over if it reaches further than the stretch.
-/

namespace SourceAtlas.Java

open Parsing (TokenSet Place Lexeme Language)

/-- The number of a terminal. -/
@[irreducible]
def tokenNumber (t : Terminal) : Nat :=
  grammar.tokenNumber t

/-- The numbers of the tokens without fixed text. -/
structure OpenTokens where
  finish : Nat := tokenNumber .finish
  identifier : Nat := tokenNumber .identifier
  number : Nat := tokenNumber .number
  character : Nat := tokenNumber .character
  fragment : Nat := tokenNumber .fragment
  escape : Nat := tokenNumber .escape
  blockFragment : Nat := tokenNumber .blockFragment
  blockQuote : Nat := tokenNumber .blockQuote
  blockEscape : Nat := tokenNumber .blockEscape
  quote : Nat := tokenNumber (.sign "\"")
  quotes : Nat := tokenNumber (.sign "\"\"\"")
  embedding : Nat := tokenNumber (.sign "\\\x7b")

/-- The tokens without fixed text. -/
def openTokens : OpenTokens := {}

/-- The words of the language with their numbers. -/
def wordTokens : List (List Char × Nat) :=
  grammar.tokens.toList.zipIdx.filterMap fun (t, n) =>
    match t with
    | .word text => some (text.toList, n)
    | _ => none

/-- The signs of the language with their numbers. -/
def signTokens : List (List Char × Nat) :=
  grammar.tokens.toList.zipIdx.filterMap fun (t, n) =>
    match t with
    | .sign text => some (text.toList, n)
    | _ => none

/-- The set of the words of the language. -/
def wordSet : TokenSet :=
  TokenSet.unionAll (wordTokens.map fun (_, n) => TokenSet.single n)

/-- The length of the word at the start of a text, or zero. -/
def wordLength : List Char → Nat
  | [] => 0
  | c :: cs => if isIdentifierStart c then (cs.takeWhile isIdentifierPart).length + 1 else 0

/-- The token that a word is where the given tokens are wanted. -/
def wordToken (wanted : TokenSet) (text : List Char) : Nat :=
  ((wordTokens.find? fun (word, n) => wanted.has n && word == text).map Prod.snd).getD
    openTokens.identifier

/-- The longer of two tokens, given by number and length; the first if they are equally long. -/
def longer (a b : Nat × Nat) : Nat × Nat :=
  if a.2 < b.2 then b else a

/-- The longest wanted sign at the start of a text, or `best` if none is longer. -/
def longestSign (wanted : TokenSet) (cs : List Char) (best : Nat × Nat) : Nat × Nat :=
  signTokens.foldl
    (fun best (sign, n) =>
      if wanted.has n && sign.isPrefixOf cs then longer best (n, sign.length) else best)
    best

/-- The longest wanted token at the start of a text that does not start with layout, by number
and length. The length is zero if there is none. -/
def longestToken (wanted : TokenSet) (cs : List Char) : Nat × Nat :=
  let word := if wanted.has openTokens.identifier || (wanted &&& wordSet) != 0 then
      wordLength cs else 0
  let best := (0, 0)
  let best := longer best (openTokens.identifier, word)
  let best := longestSign wanted cs best
  let best := if wanted.has openTokens.number then
      longer best (openTokens.number, numberLength cs) else best
  let best := if wanted.has openTokens.character then
      longer best (openTokens.character, charLength cs) else best
  if best.1 == openTokens.identifier then (wordToken wanted (cs.take best.2), best.2) else best

/-- The token of the given length at a place, unless it is empty. -/
def lexemeAt (p : Place) (token length : Nat) : Option Lexeme :=
  if length == 0 then none
  else some ⟨token, p.offset, p.skip length⟩

/-- The next token outside of string literals. -/
def scanPlain (wanted : TokenSet) (p : Place) : Option Lexeme :=
  let p := p.skip (layoutLength 0 p.rest)
  if p.rest.isEmpty then some ⟨openTokens.finish, p.offset, p⟩
  else
    let best := longestToken wanted p.rest
    lexemeAt p best.1 best.2

/-- The next token inside a plain string literal. -/
def scanString (p : Place) : Option Lexeme :=
  match p.rest with
  | '\\' :: '\x7b' :: _ => lexemeAt p openTokens.embedding 2
  | '\\' :: _ => lexemeAt p openTokens.escape (escapeLength p.rest)
  | '"' :: _ => lexemeAt p openTokens.quote 1
  | _ => lexemeAt p openTokens.fragment (fragmentLength p.rest)

/-- The length of blanks and a comment at the start of a text, if they reach further than the
stretch of a text block that starts there. -/
def longComment? (cs : List Char) : Option Nat := do
  let blanks := (cs.takeWhile isSpace).length
  let length := blanks + (← commentLength (cs.drop blanks))
  if fragmentLength cs < length then some length else none

/-- The place behind comments that reach further than the stretches that start with them. -/
def passComments : (fuel : Nat) → Place → Place
  | 0, p => p
  | fuel + 1, p =>
    match longComment? p.rest with
    | some n => passComments fuel (p.skip n)
    | none => p

/-- The next token inside a text block that does not start with a comment. -/
def scanStretch (p : Place) : Option Lexeme :=
  match p.rest with
  | '\\' :: '\x7b' :: _ => lexemeAt p openTokens.embedding 2
  | '\\' :: _ =>
    lexemeAt p openTokens.blockEscape (blockEscapeLength p.rest)
      <|> lexemeAt p openTokens.escape (escapeLength p.rest)
  | '"' :: '"' :: '"' :: _ => lexemeAt p openTokens.quotes 3
  | '"' :: _ => lexemeAt p openTokens.blockQuote (blockQuoteLength p.rest)
  | _ => lexemeAt p openTokens.blockFragment (fragmentLength p.rest)

/-- The next token inside a text block. -/
def scanBlock (p : Place) : Option Lexeme :=
  match longComment? p.rest with
  | some n => scanStretch (passComments p.rest.length (p.skip n))
  | none => scanStretch p

/-- The next token where the given ones are wanted. -/
def scan (wanted : TokenSet) (p : Place) : Option Lexeme :=
  if wanted.has openTokens.fragment then scanString p
  else if wanted.has openTokens.blockFragment then scanBlock p
  else scanPlain wanted p

/-- The language of source texts. -/
def language : Language where
  Terminal := Terminal
  Phrase := Phrase
  grammar := grammar
  scan := scan
  words := wordSet
  plainWord := openTokens.identifier

end SourceAtlas.Java
