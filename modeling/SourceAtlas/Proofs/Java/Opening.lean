import SourceAtlas.Proofs.Java.Forms
import SourceAtlas.Proofs.Java.Scanning
import SourceAtlas.Proofs.Parsing.Following

/-!
# The start of a text

At the start of a text a declaration of a package may begin, and nothing that stands inside of string
literals (`start_package`, `start_outside`). So a text that starts with the word for packages is
read with this word (`found_package`), and then its first statement declares a package.
-/

namespace SourceAtlas.Java

open Parsing
open Parsing.Grammar (Numbering Spelling Compiled)

/-! ### Spellings of the language -/

/-- What the phrases of the language and their repetitions stand for. -/
def spellings : List (Spelling Terminal Phrase) :=
  Spelling.ofRules rules

theorem compiled :
  Compiled grammar numbering .finish spellings [(.typeTest, .word "when")]
  := by
  rw [grammar_eq, numbering_eq, spellings]
  apply Grammar.compiled_ofRules sensible

theorem known_named (p : Phrase) :
  numbering.Known (.named p)
  := by
  rw [numbering_eq]
  apply Numbering.known_named sensible

theorem known_token {t : Terminal} (h : IsTerminal t) :
  numbering.Known (.token t)
  := h

theorem symbol_token (t : Terminal) :
  numbering.symbol (.token t) = .token (tokenNumber t)
  := by
  rw [tokenNumber_eq]
  rfl

theorem closed :
  grammar.Closed
  := by
  apply compiled.closed
  rw [List.forall_mem_singleton]
  exact isTerminal_of_form .guard (by decide)

/-- The rows of a phrase are spellings. -/
theorem mem_spellings {p : Phrase} {row : List (Part Terminal Phrase)}
    (h : row ∈ p.form.alternatives.map (·.parts)) :
  ⟨.named p, row⟩ ∈ spellings
  := by
  obtain ⟨a, ha, rfl⟩ := List.mem_map.mp h
  unfold spellings Spelling.ofRules
  refine List.mem_flatMap.mpr ⟨_, mem_rules p, List.mem_append_left _ ?_⟩
  exact List.mem_map.mpr ⟨a, ha, rfl⟩

theorem mem_spellings_repeated {p : Phrase} {form : Form} (hf : form ∈ p.form.repetitions)
    {row : List (Part Terminal Phrase)} (h : row ∈ form.alternatives.map (·.parts)) :
  ⟨.repeated form, row⟩ ∈ spellings ∧ ⟨.repeated form, .repeated form :: row⟩ ∈ spellings
  := by
  obtain ⟨a, ha, rfl⟩ := List.mem_map.mp h
  have inside : ∀ s ∈ [⟨.repeated form, .repeated form :: a.parts⟩, ⟨.repeated form, a.parts⟩],
      s ∈ spellings := by
    intro s hs
    unfold spellings Spelling.ofRules
    refine List.mem_flatMap.mpr ⟨_, mem_rules p, List.mem_append_right _ ?_⟩
    exact List.mem_flatMap.mpr ⟨form, hf, List.mem_flatMap.mpr ⟨a, ha, hs⟩⟩
  exact ⟨inside _ (List.mem_cons_of_mem _ List.mem_cons_self), inside _ List.mem_cons_self⟩

/-- A phrase stands only for its rows. -/
theorem row_of_named {s : Spelling Terminal Phrase} (hs : s ∈ spellings) {p : Phrase}
    (head : s.head = .named p) :
  s.row ∈ p.form.alternatives.map (·.parts)
  := by
  unfold spellings Spelling.ofRules at hs
  obtain ⟨named, mem, hs⟩ := List.mem_flatMap.mp hs
  obtain ⟨p', _, rfl⟩ := List.mem_map.mp mem
  obtain hs | hs := List.mem_append.mp hs
  · obtain ⟨a, ha, rfl⟩ := List.mem_map.mp hs
    obtain rfl : p' = p := Part.named.inj head
    exact List.mem_map_of_mem ha
  · obtain ⟨form, _, hs⟩ := List.mem_flatMap.mp hs
    obtain ⟨a, _, hs⟩ := List.mem_flatMap.mp hs
    simp only [List.mem_cons, List.not_mem_nil, or_false] at hs
    obtain rfl | rfl := hs <;> contradiction

/-- A declaration of a package without annotations, with a name of the given kind. -/
def packageSpelling (name : Part Terminal Phrase) : Spelling Terminal Phrase :=
  ⟨.named .packageDeclaration, [.token (.word "package"), name, .token (.sign ";")]⟩

/-- A path of several names, of which all but the last are of the given kind. -/
def pathSpelling (before : Part Terminal Phrase) : Spelling Terminal Phrase :=
  ⟨.named .qualifiedName, [before, .token (.sign "."), .token .identifier]⟩

/-- The statements of a text. -/
def statementsPart : Part Terminal Phrase :=
  .repeated (.named .topStatement)

/-- The part begins with text inside of string literals. -/
def inString : Part Terminal Phrase → Bool
  | .token t => t == .fragment || t == .blockFragment
  | .named p => p == .blockText
  | .repeated (.choice forms) => forms.any fun form =>
    match form with
    | .token .fragment | .named .blockText => true
    | _ => false
  | .repeated _ => false

/-- The part may begin at the start of a text. -/
def mayOpen : Part Terminal Phrase → Bool
  | .repeated (.named .statement) => false
  | part => !inString part

/-- What a spelling leads to when it begins at the start of a text: its first part, and what its
second part begins with. -/
def opensWell (s : Spelling Terminal Phrase) : Bool :=
  match s.row with
  | .token _ :: _ | [] => true
  | first :: rest => mayOpen first && rest.head?.all fun part => !inString part

/-- The part may begin with the word for packages. -/
def leadsToPackage : Part Terminal Phrase → Bool
  | .token t => t == .word "package"
  | .named p =>
    [Phrase.text, .topStatement, .statement, .declaration, .packageDeclaration].contains p
  | .repeated (.named p) => p == .topStatement || p == .statement
  | .repeated _ => false

/-- The spellings that begin at the start of a text with a part, for the parts on the way from the
word for packages to the whole text. Statements in a row are also a part of blocks, which do not begin
there. -/
def openingWith? : Part Terminal Phrase → Option (List (Spelling Terminal Phrase))
  | .token (.word "package") => some [packageSpelling (.token .identifier),
      packageSpelling (.named .softWord), packageSpelling (.named .qualifiedName)]
  | .named .packageDeclaration => some [⟨.named .declaration, [.named .packageDeclaration]⟩]
  | .named .declaration => some [⟨.named .statement, [.named .declaration]⟩]
  | .named .statement => some [⟨.named .topStatement, [.named .statement]⟩]
  | .named .topStatement => some [⟨statementsPart, [.named .topStatement]⟩]
  | .repeated (.named .topStatement) => some [⟨.named .text, [statementsPart]⟩,
      ⟨statementsPart, [statementsPart, .named .topStatement]⟩]
  | _ => none

/-- What the spellings of the language tell, looked up once for all of them. -/
theorem spellings_table :
  ∀ s ∈ spellings, (s.row.head?.any inString = true → inString s.head = true)
    ∧ (mayOpen s.head = true → opensWell s = true)
    ∧ (s.row.head?.any leadsToPackage = true → leadsToPackage s.head = true)
    ∧ (mayOpen s.head = true →
      (s.row.head?.bind openingWith?).all (fun begun => decide (s ∈ begun)) = true)
  := by
  decide +kernel

/-! ### String literals -/

/-- The tokens that tell that a place is inside of a string literal. -/
def IsFragment (t : Terminal) : Prop :=
  t = .fragment ∨ t = .blockFragment

theorem IsFragment.inString {t : Terminal} (h : IsFragment t) :
  inString (.token t) = true
  := by
  obtain rfl | rfl := h <;> rfl

theorem IsFragment.isTerminal {t : Terminal} (h : IsFragment t) :
  IsTerminal t
  := by
  obtain rfl | rfl := h
  · exact isTerminal_of_form .plainString (by decide)
  · exact isTerminal_of_form .blockText (by decide)

/-- The number is the one of a token outside of string literals. -/
def Outside (n : Nat) : Prop :=
  ∀ t, IsFragment t → n ≠ tokenNumber t

theorem leftClosed_inString {t : Terminal} (h : IsFragment t) :
  Spelling.LeftClosed spellings t fun part => inString part = true
  := by
  intro s hs part first begins
  apply (spellings_table s hs).1
  rw [first, Option.any_some]
  obtain rfl | begins := begins
  · exact h.inString
  · exact begins

/-- What is not inside of string literals does not begin with such text. -/
theorem not_has_beginning {t : Terminal} (h : IsFragment t) {part : Part Terminal Phrase}
    (known : numbering.Known part) (outside : inString part = false) :
  (Grammar.beginning grammar.firsts (numbering.symbol part)).has (tokenNumber t) = false
  := by
  apply Bool.eq_false_iff.mpr
  intro has
  rw [tokenNumber_eq] at has
  obtain rfl | begins := compiled.of_has_beginning h.isTerminal (leftClosed_inString h) known has
  · rw [h.inString] at outside
    contradiction
  · rw [begins] at outside
    contradiction

/-! ### The first state -/

theorem start_regular :
  State.Regular grammar grammar.startState
  := .start closed

theorem symbol_text :
  numbering.symbol (.named .text) = .rule 0
  := by
  rw [Numbering.symbol, names_numbering]
  rfl

/-- The parts from the whole text to the declaration of a package, each of which may be the only part
of the one before it. -/
def ascent : List (Part Terminal Phrase) :=
  [.named .text, statementsPart, .named .topStatement, .named .statement, .named .declaration,
    .named .packageDeclaration]

theorem known_statementsPart :
  numbering.Known statementsPart
  := mem_repeated .text List.mem_cons_self

theorem mem_spellings_statements :
  ⟨statementsPart, [.named .topStatement]⟩ ∈ spellings
    ∧ ⟨statementsPart, [statementsPart, .named .topStatement]⟩ ∈ spellings
  := mem_spellings_repeated (p := .text) List.mem_cons_self List.mem_cons_self

/-- At the start of a text these parts may begin, and the text may end behind them. -/
theorem start_finish :
  ∀ part ∈ ascent, (grammar.startState.expects numbering part).has 0 = true
  := by
  have step {head} (part : Part Terminal Phrase) {r : Nat} (spelled : ⟨head, [part]⟩ ∈ spellings)
      (symbol : numbering.symbol part = .rule r)
      (has : (grammar.startState.expects numbering head).has 0 = true) :
      (grammar.startState.expects numbering part).has 0 = true :=
    start_regular.has_expects_of_single compiled closed spelled rfl symbol has
  have text : (grammar.startState.expects numbering (.named .text)).has 0 = true := by
    apply start_regular.has_expects_of_item closed List.mem_cons_self symbol_text
    · rw [Grammar.next?_startItem indexed_grammar, symbol_text]
    · rw [Grammar.behindNext_startItem indexed_grammar, TokenSet.has_single, decide_eq_true rfl]
  have statements := step statementsPart (mem_spellings (by decide)) rfl text
  have topStatement := step (.named .topStatement) mem_spellings_statements.1 rfl statements
  have statement := step (.named .statement) (mem_spellings (by decide)) rfl topStatement
  have declaration := step (.named .declaration) (mem_spellings (by decide)) rfl statement
  have package := step (.named .packageDeclaration) (mem_spellings (by decide)) rfl declaration
  simp only [ascent, List.forall_mem_cons]
  exact ⟨text, statements, topStatement, statement, declaration, package, nofun⟩

/-- What may open a text leads with such parts, and no text of a string literal follows them. -/
theorem leading_mayOpen :
  Outlook.Leading grammar (numbering.Numbers fun part => mayOpen part = true) Outside
  := by
  apply compiled.leading
  · intro s hs opens first rest r row symbol
    have well := (spellings_table s hs).2.1 opens
    cases first with
    | token t => contradiction
    | named p => simp_all [opensWell]
    | repeated form => simp_all [opensWell]
  · intro s hs opens first second rest r row symbol n begins t isFragment same
    have well := (spellings_table s hs).2.1 opens
    have outside : inString second = false := by
      cases first with
      | token t => contradiction
      | named p => simp_all [opensWell]
      | repeated form => simp_all [opensWell]
    have known := compiled.known hs (show second ∈ s.head :: s.row by simp [row])
    rw [same, not_has_beginning isFragment known outside] at begins
    contradiction
  · rw [List.forall_mem_singleton]
    apply known_named
  · rw [List.forall_mem_singleton]
    intro _ t isFragment same
    rw [← tokenNumber_eq, eq_comm, tokenNumber_inj isFragment.isTerminal] at same
    obtain rfl | rfl := isFragment <;> contradiction

/-- At the start of a text nothing begins that stands inside of string literals, and no such text
follows what begins. -/
theorem of_has_start {part : Part Terminal Phrase} (known : numbering.Known part) {t : Nat}
    (h : (grammar.startState.expects numbering part).has t = true) :
  mayOpen part = true ∧ Outside t
  := by
  cases symbol : numbering.symbol part with
  | token t' =>
    rw [State.expects, symbol, TokenSet.not_has_zero] at h
    contradiction
  | rule r =>
    rw [State.expects_eq symbol] at h
    rw [← Numbering.numbers_iff (R := fun part => mayOpen part = true) known symbol]
    refine State.of_has_upcomingOf ?_ leading_mayOpen h
    rw [List.forall_mem_singleton]
    intro want wanted
    rw [Outlook.wantOf?, Grammar.next?_startItem indexed_grammar] at wanted
    obtain rfl := Option.some.inj wanted
    have text : numbering.Numbers (fun part => mayOpen part = true) 0 :=
      ⟨.named .text, known_named .text, symbol_text, rfl⟩
    refine ⟨text, ?_⟩
    intro t ht
    rw [TokenSet.has_union, Bool.or_eq_true, Grammar.behindNext_startItem indexed_grammar,
      TokenSet.has_single, decide_eq_true_eq] at ht
    obtain rfl | forced := ht
    · intro t isFragment zero
      have := (tokenNumber_eq_zero isFragment.isTerminal).mp zero.symm
      obtain rfl | rfl := isFragment <;> contradiction
    · exact leading_mayOpen.forced 0 text t forced

theorem start_incomplete :
  ∀ i ∈ grammar.startState.items, i.next? grammar = some (.rule 0)
  := by
  rw [show grammar.startState.items = [grammar.startItem] from rfl, List.forall_mem_singleton]
  exact Grammar.next?_startItem indexed_grammar

/-- Before the start of a text no string literal is open. -/
theorem start_outside {t : Terminal} (h : IsFragment t) :
  grammar.startState.possible.has (tokenNumber t) = false
  := by
  apply Bool.eq_false_iff.mpr
  intro has
  obtain readable | ⟨i, hi, done, _⟩ := start_regular.has_possible.mp has
  · rw [tokenNumber_eq] at readable
    obtain ⟨i, hi, next⟩ | ⟨s, hs, first, begins⟩ :=
      start_regular.of_has_readable compiled indexed_grammar h.isTerminal readable
    · rw [start_incomplete i hi] at next
      have same : Symbol.rule 0 = .token (numbering.tokens.idxOf t) := Option.some.inj next
      contradiction
    · have inside := (spellings_table s hs).1 (by rw [first, Option.any_some, h.inString])
      obtain ⟨n, has⟩ := Nat.exists_testBit_of_ne_zero begins
      have opens := (of_has_start (compiled.known hs List.mem_cons_self) has).1
      unfold mayOpen at opens
      split at opens
      · contradiction
      · rw [inside] at opens
        contradiction
  · rw [start_incomplete i hi] at done
    contradiction

theorem mem_packageSpelling :
  ∀ name ∈ [.token .identifier, .named .softWord, .named .qualifiedName],
    packageSpelling name ∈ spellings
  := by
  have rows : ∀ name ∈ [.token .identifier, .named .softWord, .named .qualifiedName],
      (packageSpelling name).row ∈ Phrase.packageDeclaration.form.alternatives.map (·.parts) := by
    decide +kernel
  intro name h
  exact mem_spellings (rows name h)

theorem isTerminal_package :
  IsTerminal (.word "package")
  := isTerminal_of_form .packageDeclaration (by decide)

theorem isTerminal_point :
  IsTerminal (.sign ".")
  := isTerminal_of_form .qualifiedName (by decide)

theorem isTerminal_semicolon :
  IsTerminal (.sign ";")
  := isTerminal_of_form .packageDeclaration (by decide)

/-- At the start of a text the word for packages is read. -/
theorem start_package :
  grammar.startState.readable.has (tokenNumber (.word "package")) = true
    ∧ grammar.startState.choices grammar (tokenNumber (.word "package")) = { reads := true }
  := by
  have begins : grammar.startState.expects numbering (.named .packageDeclaration) ≠ 0 := by
    intro zero
    have has := start_finish (.named .packageDeclaration) (by decide)
    rw [zero, TokenSet.not_has_zero] at has
    contradiction
  have spelled := mem_packageSpelling (.token .identifier) List.mem_cons_self
  have readable := start_regular.has_readable_of_spelling compiled spelled rfl begins
  rw [tokenNumber_eq]
  refine ⟨readable, ?_⟩
  rw [State.choices_reads, readable]
  intro i hi done
  rw [start_incomplete i hi] at done
  exact absurd done (Option.some_ne_none _)

/-! ### The word for packages -/

/-- The word for packages as a name. -/
def packageWord : Identifier where
  first := 'p'
  more := ['a', 'c', 'k', 'a', 'g', 'e']
  isStart := by decide
  isPart := List.all_eq_true.mp (by decide)

theorem scan_eq_scanPlain {wanted : TokenSet} {p : Parsing.Place}
    (outside : ∀ t, IsFragment t → wanted.has (tokenNumber t) = false) :
  scan wanted p = scanPlain wanted p
  := by
  have fragment : wanted.has openTokens.fragment = false := outside .fragment (.inl rfl)
  have blockFragment : wanted.has openTokens.blockFragment = false := outside .blockFragment (.inr rfl)
  rw [scan, fragment, blockFragment, if_neg Bool.false_ne_true, if_neg Bool.false_ne_true]

/-- A text that starts with the word for packages starts with this token. -/
theorem scan_package {text : List Char} {o : Nat} {gap : Gap} {cs : List Char}
    (rest : text.drop o = gap.written ++ (packageWord.written ++ cs)) (stops : StopsName cs) :
  scan grammar.startState.possible (.inText text o)
    = some ⟨tokenNumber (.word "package"), o + gap.written.length,
      .inText text (o + (gap.written.length + packageWord.written.length))⟩
  := by
  have has : grammar.startState.possible.has (tokenNumber (.word "package")) = true :=
    start_regular.has_possible.mpr (.inl start_package.1)
  have words : (grammar.startState.possible.has openTokens.identifier
      || (grammar.startState.possible &&& wordSet) != 0) = true := by
    rw [Bool.or_eq_true, bne_iff_ne]
    right
    intro none
    have both :
        (grammar.startState.possible &&& wordSet).has (tokenNumber (.word "package")) = true := by
      have word := has_wordSet.mpr ⟨"package", isTerminal_package, rfl⟩
      rw [TokenSet.has] at has word ⊢
      rw [Nat.testBit_and, has, word]
      rfl
    rw [none, TokenSet.not_has_zero] at both
    exact Bool.false_ne_true both
  have longest := packageWord.longestToken_written stops words
  have word : wordToken grammar.startState.possible packageWord.written
      = tokenNumber (.word "package") := wordToken_eq_word isTerminal_package has
  rw [word] at longest
  rw [scan_eq_scanPlain fun t h => start_outside h,
    scanPlain_eq rest (packageWord.layoutLength_written cs) longest (by decide) (by simp [packageWord,
      Identifier.written]), Place.skip_inText]
  rfl

/-- At the start of a text the word for packages is found. -/
theorem found_package {text : List Char} {o : Nat} {leaf : Leaf} (h : Found language text o o leaf)
    {gap : Gap} {cs : List Char} (rest : text.drop o = gap.written ++ (packageWord.written ++ cs))
    (stops : StopsName cs) :
  leaf.token = tokenNumber (.word "package")
    ∧ leaf.stop = o + (gap.written.length + packageWord.written.length)
  := by
  cases h with
  | token reached scanned =>
    obtain rfl := reached.eq_startState language_lawful
    obtain rfl := Option.some.inj (scanned.symm.trans (scan_package rest stops))
    exact ⟨rfl, rfl⟩
  | plain reached scanned word reached' idle =>
    obtain rfl := reached.eq_startState language_lawful
    obtain rfl := reached'.eq_startState language_lawful
    obtain rfl := Option.some.inj (scanned.symm.trans (scan_package rest stops))
    have reads : grammar.startState.choices grammar (tokenNumber (.word "package"))
        = { reads := true } := start_package.2
    have acts : (grammar.startState.choices grammar (tokenNumber (.word "package"))).isIdle = true :=
      idle
    rw [reads] at acts
    exact absurd acts (by decide)

end SourceAtlas.Java
