import SourceAtlas.Proofs.Java.Opening

/-!
# The states of a declaration of a package

The states that are passed when a text is read that holds nothing but a declaration of a package, and
what is done there on its tokens. Behind a name it is the same whether the name is a single one or a
path: at a point it goes on (`pointState_reads`), and a path is ended before the next mark and read as
one name (`pathState_ends`). At the end of the text the declaration is all of it (`markState_ends`).
-/

namespace SourceAtlas.Java

open Parsing
open Parsing.Grammar (Numbering Spelling)

/-! ### The states -/

/-- The items of the state are the entries. -/
abbrev Holds (q : State) (entries : List (Parsing.Entry Terminal Phrase)) : Prop :=
  q.Holds grammar numbering spellings entries

/-- The state behind the word for packages. -/
def wordState : State :=
  grammar.startState.behind grammar (.token (tokenNumber (.word "package")))

/-- The state behind the name of a package, which is read as the given part. -/
def nameState (name : Part Terminal Phrase) : State :=
  wordState.behind grammar (numbering.symbol name)

/-- The state behind a point. -/
def pointState (name : Part Terminal Phrase) : State :=
  (nameState name).behind grammar (.token (tokenNumber (.sign ".")))

/-- The state behind a point and a further name. -/
def pathState (name : Part Terminal Phrase) : State :=
  (pointState name).behind grammar (.token (tokenNumber .identifier))

/-- The state behind the mark at the end of the declaration. -/
def markState (name : Part Terminal Phrase) : State :=
  (nameState name).behind grammar (.token (tokenNumber (.sign ";")))

/-- What may follow a declaration of a package. -/
def declarationFollow : TokenSet :=
  grammar.startState.expects numbering (.named .packageDeclaration)

/-- What may follow a path in a declaration of a package. -/
def pathFollow : TokenSet :=
  wordState.expects numbering (.named .qualifiedName)

theorem start_expects_ne_zero {part : Part Terminal Phrase} (mem : part ∈ ascent) :
  grammar.startState.expects numbering part ≠ 0
  := by
  intro zero
  have has := start_finish part mem
  rw [zero, TokenSet.not_has_zero] at has
  exact Bool.false_ne_true has

theorem mem_openingWith {s : Spelling Terminal Phrase} (hs : s ∈ spellings)
    {part : Part Terminal Phrase} (first : s.row.head? = some part)
    {begun : List (Spelling Terminal Phrase)} (same : openingWith? part = some begun)
    (expected : grammar.startState.expects numbering s.head ≠ 0) :
  s ∈ begun
  := by
  obtain ⟨n, has⟩ := Nat.exists_testBit_of_ne_zero expected
  have table := (spellings_table s hs).2.2.2
    (of_has_start (compiled.known hs List.mem_cons_self) has).1
  rw [first, Option.bind_some, same] at table
  exact decide_eq_true_eq.mp table

theorem wordState_holds :
  Holds wordState
    [⟨packageSpelling (.token .identifier), 1, declarationFollow⟩,
      ⟨packageSpelling (.named .softWord), 1, declarationFollow⟩,
      ⟨packageSpelling (.named .qualifiedName), 1, declarationFollow⟩]
  := by
  have package : Part.named .packageDeclaration ∈ ascent := by decide
  rw [wordState, ← symbol_token]
  apply State.Holds.of_behind compiled indexed_grammar closed start_regular
    (known_token isTerminal_package) [] [packageSpelling (.token .identifier),
      packageSpelling (.named .softWord), packageSpelling (.named .qualifiedName)]
  · exact nofun
  · intro i hi next
    rw [start_incomplete i hi, symbol_token] at next
    exact nomatch Option.some.inj next
  · exact nofun
  · intro s hs first expected
    exact mem_openingWith hs first rfl expected
  · intro s hs
    obtain ⟨name, mem, rfl⟩ : ∃ name ∈ [.token .identifier, .named .softWord, .named .qualifiedName],
        packageSpelling name = s := List.mem_map.mp hs
    exact ⟨mem_packageSpelling name mem, rfl, start_expects_ne_zero package⟩

/-- A part that names a package. -/
def IsName (name : Part Terminal Phrase) : Prop :=
  name = .token .identifier ∨ name = .named .qualifiedName

theorem IsName.known {name : Part Terminal Phrase} (h : IsName name) :
  numbering.Known name
  := by
  obtain rfl | rfl := h
  · exact isTerminal_identifier
  · apply known_named

/-- The marks behind the name of a package. -/
def IsMark (sign : String) : Prop :=
  sign = "." ∨ sign = ";"

theorem IsMark.isTerminal {sign : String} (h : IsMark sign) :
  IsTerminal (.sign sign)
  := by
  obtain rfl | rfl := h
  · exact isTerminal_point
  · exact isTerminal_semicolon

theorem beginning_token (t : Terminal) (n : Nat) :
  (Grammar.beginning grammar.firsts (numbering.symbol (.token t))).has n = decide (n = tokenNumber t)
  := by
  rw [symbol_token, Grammar.beginning, TokenSet.has_single]

/-- The part may begin a path. -/
def IsPathStart (part : Part Terminal Phrase) : Prop :=
  part = .named .softWord ∨ part = .named .qualifiedName

/-- In a path only paths come first, and a point comes behind them. -/
def isPathRow : List (Part Terminal Phrase) → Bool
  | .token _ :: _ => true
  | first :: second :: _ =>
    (first = .named .softWord ∨ first = .named .qualifiedName) ∧ second = .token (.sign ".")
  | _ => false

theorem isPathRow_of_mem {s : Spelling Terminal Phrase} (hs : s ∈ spellings)
    (path : IsPathStart s.head) :
  isPathRow s.row = true
  := by
  have table : ∀ p ∈ [Phrase.softWord, .qualifiedName],
      ∀ row ∈ p.form.alternatives.map (·.parts), isPathRow row = true := by decide +kernel
  obtain head | head := path
  · exact table .softWord (by decide) s.row (row_of_named hs head)
  · exact table .qualifiedName (by decide) s.row (row_of_named hs head)

/-- What a path starts with leads with what a path starts with, and a mark follows. -/
theorem leading_isPathStart :
  Outlook.Leading grammar (numbering.Numbers IsPathStart)
    fun n => ∃ sign, IsMark sign ∧ n = tokenNumber (.sign sign)
  := by
  apply compiled.leading
  · intro s hs head first rest r row symbol
    have path := isPathRow_of_mem hs head
    rw [row] at path
    cases first with
    | token t => contradiction
    | _ => cases rest <;> simp_all [isPathRow, IsPathStart]
  · intro s hs head first second rest r row symbol n begins
    have path := isPathRow_of_mem hs head
    rw [row] at path
    obtain rfl : second = .token (.sign ".") := by
      cases first with
      | token t => contradiction
      | _ => simp_all [isPathRow]
    rw [beginning_token, decide_eq_true_eq] at begins
    exact ⟨".", .inl rfl, begins⟩
  · rw [List.forall_mem_singleton]
    apply known_named
  · rw [List.forall_mem_singleton]
    simp [IsPathStart]

/-- Behind the word for packages only a path may begin, and a mark follows it. -/
theorem of_has_wordState {part : Part Terminal Phrase} (known : numbering.Known part) {n : Nat}
    (h : (wordState.expects numbering part).has n = true) :
  IsPathStart part ∧ ∃ sign, IsMark sign ∧ n = tokenNumber (.sign sign)
  := by
  refine wordState_holds.of_has_expects compiled leading_isPathStart ?_ known h
  have behind : ∀ name n,
      ((⟨packageSpelling name, 1, declarationFollow⟩ : Parsing.Entry _ _).behindNext grammar
        numbering).has n = true → ∃ sign, IsMark sign ∧ n = tokenNumber (.sign sign) := by
    intro name n begins
    have mark : (⟨packageSpelling name, 1, declarationFollow⟩ : Parsing.Entry _ _).behindNext grammar
        numbering = Grammar.beginning grammar.firsts (numbering.symbol (.token (.sign ";"))) := rfl
    rw [mark, beginning_token, decide_eq_true_eq] at begins
    exact ⟨";", .inr rfl, begins⟩
  simp only [List.forall_mem_cons]
  refine ⟨?_, ?_, ?_, nofun⟩
  · intro part r next symbol
    obtain rfl : Part.token .identifier = part := Option.some.inj next
    contradiction
  · intro part r next symbol
    obtain rfl : Part.named .softWord = part := Option.some.inj next
    exact ⟨.inl rfl, behind _⟩
  · intro part r next symbol
    obtain rfl : Part.named .qualifiedName = part := Option.some.inj next
    exact ⟨.inr rfl, behind _⟩

/-- Both marks may follow a path. -/
theorem pathFollow_has {sign : String} (h : IsMark sign) :
  pathFollow.has (tokenNumber (.sign sign)) = true
  := by
  have semicolon : pathFollow.has (tokenNumber (.sign ";")) = true := by
    obtain ⟨i, hi, is⟩ := wordState_holds.exists_item
      ⟨packageSpelling (.named .qualifiedName), 1, declarationFollow⟩ (by simp)
    apply wordState_holds.regular.has_expects_of_item closed hi rfl is.next?
    rw [is.behindNext]
    exact (beginning_token _ _).trans (decide_eq_true rfl)
  obtain rfl | rfl := h
  · have begins : wordState.expects numbering (.named .qualifiedName) ≠ 0 := by
      intro zero
      rw [pathFollow, zero, TokenSet.not_has_zero] at semicolon
      exact Bool.false_ne_true semicolon
    have spelled : pathSpelling (.named .qualifiedName) ∈ spellings := mem_spellings (by decide)
    apply wordState_holds.regular.has_expects_of_cons compiled closed spelled rfl rfl begins
    exact (beginning_token _ _).trans (decide_eq_true rfl)
  · exact semicolon

theorem pathFollow_ne_zero :
  pathFollow ≠ 0
  := by
  intro zero
  have has : pathFollow.has (tokenNumber (.sign ".")) = true := pathFollow_has (.inl rfl)
  rw [zero, TokenSet.not_has_zero] at has
  exact Bool.false_ne_true has

/-- Where only tokens are asked for, the items behind a token are those that asked for it. -/
theorem holds_behind_token {q : State} {entries : List (Parsing.Entry Terminal Phrase)}
    (h : Holds q entries) (tokens : ∀ e ∈ entries, ∀ part ∈ e.next?, ∃ t, part = .token t)
    {t : Terminal} (known : IsTerminal t) :
  Holds (q.behind grammar (.token (tokenNumber t)))
    ((entries.filter fun e => e.next? = some (.token t)).map Parsing.Entry.pass)
  := by
  have behind := h.behind compiled indexed_grammar closed (known_token known) [] ?_ nofun
  · rw [List.map_nil, List.append_nil, symbol_token] at behind
    exact behind
  · intro s hs _ begins
    refine absurd (h.expects_eq_zero compiled ?_ (compiled.known hs List.mem_cons_self)) begins
    intro e he part r next symbol
    obtain ⟨t, rfl⟩ := tokens e he part next
    contradiction

theorem nameState_asks (name : Part Terminal Phrase) :
  ∀ e ∈ [⟨packageSpelling name, 2, declarationFollow⟩, ⟨pathSpelling name, 1, pathFollow⟩],
    ∀ part ∈ (e : Parsing.Entry Terminal Phrase).next?, ∃ t, part = .token t
  := by
  rw [List.forall_mem_cons, List.forall_mem_singleton]
  constructor
  · intro part next
    exact ⟨.sign ";", (Option.some.inj next).symm⟩
  · intro part next
    exact ⟨.sign ".", (Option.some.inj next).symm⟩

theorem pointState_asks (name : Part Terminal Phrase) :
  ∀ e ∈ [⟨pathSpelling name, 2, pathFollow⟩],
    ∀ part ∈ (e : Parsing.Entry Terminal Phrase).next?, ∃ t, part = .token t
  := by
  rw [List.forall_mem_singleton]
  intro part next
  exact ⟨.identifier, (Option.some.inj next).symm⟩

section Names

variable {name : Part Terminal Phrase} (h : IsName name)
include h

theorem mem_pathSpelling :
  pathSpelling name ∈ spellings
  := by
  obtain rfl | rfl := h <;> exact mem_spellings (by decide)

/-- Behind a name the declaration may end, or the name is the start of a path. -/
theorem nameState_holds :
  Holds (nameState name)
    [⟨packageSpelling name, 2, declarationFollow⟩, ⟨pathSpelling name, 1, pathFollow⟩]
  := by
  have table : ∀ p ∈ [Phrase.softWord, .qualifiedName],
      ∀ name ∈ [Part.token .identifier, .named .qualifiedName],
      ∀ row ∈ p.form.alternatives.map (·.parts), row.head? = some name →
        (⟨.named p, row⟩ : Spelling _ _) = pathSpelling name := by decide +kernel
  have behind := wordState_holds.behind compiled indexed_grammar closed h.known [pathSpelling name] ?_ ?_
  · have asked : ([⟨packageSpelling (.token .identifier), 1, declarationFollow⟩,
        ⟨packageSpelling (.named .softWord), 1, declarationFollow⟩,
        ⟨packageSpelling (.named .qualifiedName), 1, declarationFollow⟩].filter
          fun e : Parsing.Entry Terminal Phrase => e.next? = some name)
        = [⟨packageSpelling name, 1, declarationFollow⟩] := by
      obtain rfl | rfl := h <;> rfl
    rw [asked] at behind
    exact behind
  · intro s hs first begins
    obtain ⟨n, has⟩ := Nat.exists_testBit_of_ne_zero begins
    obtain ⟨path, _⟩ := of_has_wordState (compiled.known hs List.mem_cons_self) has
    obtain ⟨p, mem, head⟩ : ∃ p ∈ [Phrase.softWord, .qualifiedName], s.head = .named p := by
      obtain head | head := path
      · exact ⟨_, List.mem_cons_self, head⟩
      · exact ⟨_, List.mem_cons_of_mem _ List.mem_cons_self, head⟩
    have listed : name ∈ [Part.token .identifier, .named .qualifiedName] := by
      obtain rfl | rfl := h <;> simp
    have same := table p mem name listed s.row (row_of_named hs head) first
    rw [← head] at same
    exact List.mem_singleton.mpr same
  · rw [List.forall_mem_singleton]
    exact ⟨mem_pathSpelling h, rfl, pathFollow_ne_zero⟩

/-- Behind a point a further name is asked for. -/
theorem pointState_holds :
  Holds (pointState name) [⟨pathSpelling name, 2, pathFollow⟩]
  := holds_behind_token (nameState_holds h) (nameState_asks name) isTerminal_point

/-- A further name completes the path. -/
theorem pathState_holds :
  Holds (pathState name) [⟨pathSpelling name, 3, pathFollow⟩]
  := holds_behind_token (pointState_holds h) (pointState_asks name) isTerminal_identifier

/-- The mark completes the declaration. -/
theorem markState_holds :
  Holds (markState name) [⟨packageSpelling name, 3, declarationFollow⟩]
  := holds_behind_token (nameState_holds h) (nameState_asks name) isTerminal_semicolon

end Names

/-! ### What is looked for -/

/-- Before the token no string literal is open. -/
def IsOutside (q : State) : Prop :=
  ∀ t, IsFragment t → q.possible.has (tokenNumber t) = false

theorem outside_declarationFollow {t : Terminal} (h : IsFragment t) :
  declarationFollow.has (tokenNumber t) = false
  := by
  apply Bool.eq_false_iff.mpr
  intro has
  exact (of_has_start (known_named _) has).2 t h rfl

theorem outside_pathFollow {t : Terminal} (h : IsFragment t) :
  pathFollow.has (tokenNumber t) = false
  := by
  apply Bool.eq_false_iff.mpr
  intro has
  obtain ⟨_, sign, _, same⟩ := of_has_wordState (known_named _) has
  obtain rfl := (tokenNumber_inj h.isTerminal).mp same
  obtain same | same := h <;> contradiction

/-- No string literal is open where the entries ask for no text inside of one, what begins does not
begin with such text, and none follows. -/
theorem isOutside_of_holds {q : State} {entries : List (Parsing.Entry Terminal Phrase)}
    (h : Holds q entries) (asks : (entries.all fun e => e.next?.all fun part => !inString part) = true)
    (begins : ∀ s ∈ spellings, q.expects numbering s.head ≠ 0 → inString s.head = false)
    (follows : ∀ e ∈ entries, ∀ t, IsFragment t → e.follow.has (tokenNumber t) = false) :
  IsOutside q
  := by
  intro t isFragment
  apply Bool.eq_false_iff.mpr
  intro has
  rw [tokenNumber_eq] at has
  obtain ⟨e, he, next⟩ | ⟨s, hs, first, expected⟩ | ⟨e, he, _, follow⟩ :=
    h.of_has_possible compiled indexed_grammar (known_token isFragment.isTerminal) has
  · have outside := List.all_eq_true.mp asks e he
    rw [next, Option.all_some, isFragment.inString] at outside
    contradiction
  · have inside := (spellings_table s hs).1 (by rw [first, Option.any_some, isFragment.inString])
    rw [begins s hs expected] at inside
    contradiction
  · rw [← tokenNumber_eq, follows e he t isFragment] at follow
    contradiction

theorem wordState_outside :
  IsOutside wordState
  := by
  apply isOutside_of_holds wordState_holds rfl
  · intro s hs expected
    obtain ⟨n, has⟩ := Nat.exists_testBit_of_ne_zero expected
    obtain ⟨head | head, _⟩ := of_has_wordState (compiled.known hs List.mem_cons_self) has
    · rw [head]
      rfl
    · rw [head]
      rfl
  · simp only [List.forall_mem_cons]
    exact ⟨fun t => outside_declarationFollow, fun t => outside_declarationFollow,
      fun t => outside_declarationFollow, nofun⟩

/-- No string literal is open where tokens outside of one are asked for. -/
theorem isOutside_of_tokens {q : State} {entries : List (Parsing.Entry Terminal Phrase)}
    (h : Holds q entries) (tokens : ∀ e ∈ entries, ∀ part ∈ e.next?, ∃ t, part = .token t)
    (asks : (entries.all fun e => e.next?.all fun part => !inString part) = true)
    (follows : ∀ e ∈ entries, ∀ t, IsFragment t → e.follow.has (tokenNumber t) = false) :
  IsOutside q
  := by
  apply isOutside_of_holds h asks _ follows
  intro s hs expected
  refine absurd (h.expects_eq_zero compiled ?_ (compiled.known hs List.mem_cons_self)) expected
  intro e he part r next symbol
  obtain ⟨t, rfl⟩ := tokens e he part next
  contradiction

section Outside

variable {name : Part Terminal Phrase} (h : IsName name)
include h

theorem nameState_outside :
  IsOutside (nameState name)
  := by
  apply isOutside_of_tokens (nameState_holds h) (nameState_asks name) rfl
  rw [List.forall_mem_cons, List.forall_mem_singleton]
  exact ⟨fun t => outside_declarationFollow, fun t => outside_pathFollow⟩

theorem pointState_outside :
  IsOutside (pointState name)
  := by
  apply isOutside_of_tokens (pointState_holds h) (pointState_asks name) rfl
  rw [List.forall_mem_singleton]
  exact fun t => outside_pathFollow

theorem pathState_outside :
  IsOutside (pathState name)
  := by
  apply isOutside_of_tokens (pathState_holds h) _ rfl
  · rw [List.forall_mem_singleton]
    exact fun t => outside_pathFollow
  · rw [List.forall_mem_singleton]
    exact nofun

theorem markState_outside :
  IsOutside (markState name)
  := by
  apply isOutside_of_tokens (markState_holds h) _ rfl
  · rw [List.forall_mem_singleton]
    exact fun t => outside_declarationFollow
  · rw [List.forall_mem_singleton]
    exact nofun

end Outside

/-! ### The end of the text -/

theorem productions_grammar :
  grammar.productions.toList = numbering.productions rules
  := by
  rw [grammar_eq, numbering_eq]
  rfl

theorem apart_named (p : Phrase) (differ : (p.form.alternatives.map (·.parts)).Nodup) :
  Grammar.Apart grammar.productions.toList (numbering.names.idxOf p)
  := by
  rw [productions_grammar, numbering_eq]
  exact Grammar.apart_named sensible (mem_rules p) differ

theorem apart_statements :
  Grammar.Apart grammar.productions.toList
    (numbering.names.length + numbering.repeated.idxOf (.named .topStatement))
  := by
  have repeated := known_statementsPart
  rw [numbering_eq] at repeated
  rw [productions_grammar, numbering_eq]
  exact Grammar.apart_repeated sensible repeated (by decide)

/-- The state behind a part at the start of a text. -/
def partState (part : Part Terminal Phrase) : State :=
  grammar.startState.behind grammar (numbering.symbol part)

section Ascent

variable {part : Part Terminal Phrase} (mem : part ∈ ascent.tail)
include mem

theorem known_ascent :
  numbering.Known part
  := by
  simp only [ascent, List.tail_cons, List.mem_cons, List.not_mem_nil, or_false] at mem
  obtain rfl | rfl | rfl | rfl | rfl := mem
  case inl => exact known_statementsPart
  all_goals apply known_named

theorem openingWith_spelled {begun : List (Spelling Terminal Phrase)}
    (same : openingWith? part = some begun) :
  ∀ s ∈ begun, s ∈ spellings ∧ s.row.head? = some part ∧ s.head ∈ ascent
  := by
  obtain ⟨one, more⟩ := mem_spellings_statements
  simp only [ascent, List.tail_cons, List.mem_cons, List.not_mem_nil, or_false] at mem
  obtain rfl | rfl | rfl | rfl | rfl := mem <;> obtain rfl := Option.some.inj same
  · rw [List.forall_mem_cons, List.forall_mem_singleton]
    exact ⟨⟨mem_spellings (by decide), rfl, by decide⟩, more, rfl, by decide⟩
  · rw [List.forall_mem_singleton]
    exact ⟨one, rfl, by decide⟩
  all_goals
    rw [List.forall_mem_singleton]
    exact ⟨mem_spellings (by decide), rfl, by decide⟩

/-- What begins at the start of a text with one of these parts. -/
theorem partState_holds {begun : List (Spelling Terminal Phrase)}
    (same : openingWith? part = some begun) :
  Holds (partState part)
    (begun.map fun s => ⟨s, 1, grammar.startState.expects numbering s.head⟩)
  := by
  have notWhole : part ≠ .named .text := by
    rintro rfl
    contradiction
  have known := known_ascent mem
  have behind := State.Holds.of_behind compiled indexed_grammar closed start_regular known
    [] begun nofun ?_ nofun ?_ ?_
  · exact behind
  · intro i hi next
    rw [start_incomplete i hi, ← symbol_text] at next
    exact absurd ((Numbering.symbol_inj (known_named .text) known).mp (Option.some.inj next)).symm
      notWhole
  · intro s hs first expected
    exact mem_openingWith hs first same expected
  · intro s hs
    obtain ⟨spelled, first, mem⟩ := openingWith_spelled mem same s hs
    exact ⟨spelled, first, start_expects_ne_zero mem⟩

end Ascent

/-- At the end of a text a part that is the only part of another one is ended as this. -/
theorem ends_partState {part head : Part Terminal Phrase} {others : List (Spelling Terminal Phrase)}
    (h : Holds (partState part) ((⟨head, [part]⟩ :: others).map fun s =>
      ⟨s, 1, grammar.startState.expects numbering s.head⟩))
    (mem : head ∈ ascent) (incomplete : ∀ s ∈ others, s.row[1]? ≠ none)
    (notWhole : numbering.symbol part ≠ .rule 0) {r : Nat} (symbol : numbering.symbol head = .rule r)
    (apart : Grammar.Apart grammar.productions.toList r)
    (inhabited : grammar.startState.itemsBehind grammar (numbering.symbol head) ≠ [])
    {k : Nat} {qs : List State}
    (more : Ends grammar 0 k [partState head, grammar.startState] qs) :
  Ends grammar 0 (k + 1) [partState part, grammar.startState] qs
  := by
  have unread : (partState part).readable.has 0 = false := by
    rw [h.regular.made]
    exact State.not_has_readable_finish indexed_grammar
  apply h.ends_one indexed_grammar (e := ⟨⟨head, [part]⟩, 1, grammar.startState.expects numbering head⟩)
    List.mem_cons_self rfl (start_finish head mem) _ symbol apart _ unread rfl inhabited more
  · rw [List.map_cons, List.forall_mem_cons]
    refine ⟨fun _ _ => ⟨rfl, rfl⟩, ?_⟩
    intro e he done
    obtain ⟨s, hs, rfl⟩ := List.mem_map.mp he
    exact absurd done (incomplete s hs)
  · intro whole
    exact notWhole (List.singleton_inj.mp whole)

theorem partState_ne_nil {part : Part Terminal Phrase} {e : Parsing.Entry Terminal Phrase}
    {entries : List (Parsing.Entry Terminal Phrase)} (h : Holds (partState part) (e :: entries)) :
  grammar.startState.itemsBehind grammar (numbering.symbol part) ≠ []
  := by
  obtain ⟨i, hi, _⟩ := h.exists_item e List.mem_cons_self
  exact List.ne_nil_of_mem hi

/-- The whole text is there behind the first phrase. -/
theorem partState_text :
  ∃ i ∈ (partState (.named .text)).items, i.production = grammar.wholeProduction
    ∧ i.next? grammar = none ∧ i.follow.has 0 = true
  := by
  obtain ⟨w, hw, symbols, _⟩ := indexed_grammar.whole
  refine ⟨{ grammar.startItem with place := 1 }, ?_, rfl, ?_, ?_⟩
  · refine State.mem_itemsBehind.mpr (.inl ⟨grammar.startItem, List.mem_cons_self, ?_, rfl⟩)
    rw [Grammar.next?_startItem indexed_grammar, symbol_text]
  · have production : Item.production? grammar { grammar.startItem with place := 1 } = some w := hw
    rw [Item.next?, production, Option.bind_some, symbols]
    rfl
  · exact (TokenSet.has_single 0 0).trans (decide_eq_true rfl)

theorem partState_packageDeclaration :
  Holds (partState (.named .packageDeclaration))
    [⟨⟨.named .declaration, [.named .packageDeclaration]⟩, 1,
      grammar.startState.expects numbering (.named .declaration)⟩]
  := partState_holds (by decide : .named .packageDeclaration ∈ ascent.tail) rfl

/-- At the end of a text a declaration of a package is the whole of it. -/
theorem ends_packageDeclaration :
  Ends grammar 0 5 [partState (.named .packageDeclaration), grammar.startState]
    [partState (.named .text), grammar.startState]
  := by
  have text : grammar.startState.itemsBehind grammar (numbering.symbol (.named .text)) ≠ [] := by
    obtain ⟨i, hi, _⟩ := partState_text
    exact List.ne_nil_of_mem hi
  have statements := partState_holds (by decide : statementsPart ∈ ascent.tail) rfl
  have topStatement := partState_holds (by decide : .named .topStatement ∈ ascent.tail) rfl
  have statement := partState_holds (by decide : .named .statement ∈ ascent.tail) rfl
  have declaration := partState_holds (by decide : .named .declaration ∈ ascent.tail) rfl
  have package := partState_packageDeclaration
  have notWhole : ∀ part ∈ ascent.tail, numbering.symbol part ≠ .rule 0 := by
    intro part mem
    rw [← symbol_text, Ne, Numbering.symbol_inj (known_ascent mem) (known_named .text)]
    rintro rfl
    exact absurd mem (by decide)
  have none : ∀ s : Spelling Terminal Phrase, s ∈ [] → s.row[1]? ≠ none := nofun
  apply ends_partState package (by decide) none (notWhole _ (by decide)) rfl
    (apart_named .declaration (by decide)) (partState_ne_nil declaration)
  apply ends_partState declaration (by decide) none (notWhole _ (by decide)) rfl
    (apart_named .statement (by decide)) (partState_ne_nil statement)
  apply ends_partState statement (by decide) none (notWhole _ (by decide)) rfl
    (apart_named .topStatement (by decide)) (partState_ne_nil topStatement)
  apply ends_partState topStatement (by decide) none (notWhole _ (by decide)) rfl apart_statements
    (partState_ne_nil statements)
  apply ends_partState statements (by decide) (by simp) (notWhole _ (by decide)) rfl
    (apart_named .text (by decide)) text
  exact .none _

/-- Behind the whole text it is accepted. -/
theorem partState_accepts :
  ((partState (.named .text)).choices grammar 0).accepts = true
  := by
  obtain ⟨i, hi, whole, done, follow⟩ := partState_text
  exact State.accepts_choices.mpr ⟨i, State.mem_complete.mpr ⟨hi, done, follow⟩, whole⟩

/-! ### What is done on the tokens of a declaration -/

/-- The token is looked for at the state and read there. -/
structure Reads (q : State) (t : Terminal) : Prop where
  wanted : q.possible.has (tokenNumber t) = true
  choices : q.choices grammar (tokenNumber t) = { reads := true }
  inhabited : q.itemsBehind grammar (.token (tokenNumber t)) ≠ []

/-- What an entry asks for is read where no entry is complete. -/
theorem reads_of_holds {q : State} {entries : List (Parsing.Entry Terminal Phrase)}
    (h : Holds q entries) {e : Parsing.Entry Terminal Phrase} (he : e ∈ entries) {t : Terminal}
    (next : e.next? = some (.token t)) (incomplete : (entries.all fun e => e.next?.isSome) = true) :
  Reads q t
  := by
  constructor
  · rw [tokenNumber_eq]
    exact h.regular.has_possible.mpr (.inl (h.has_readable_of_next he next))
  · rw [tokenNumber_eq]
    apply h.reads he next
    intro e he done
    have some := List.all_eq_true.mp incomplete e he
    rw [done] at some
    contradiction
  · rw [← symbol_token]
    exact h.ne_nil he next

theorem wordState_reads :
  Reads wordState .identifier
  := reads_of_holds wordState_holds List.mem_cons_self rfl rfl

/-- Where all entries are complete nothing is read. -/
theorem unread_of_holds {q : State} {entries : List (Parsing.Entry Terminal Phrase)}
    (h : Holds q entries) (complete : ∀ e ∈ entries, e.next? = none) {t : Terminal}
    (known : IsTerminal t) :
  q.readable.has (tokenNumber t) = false
  := by
  apply Bool.eq_false_iff.mpr
  intro has
  rw [tokenNumber_eq] at has
  obtain ⟨i, hi, next⟩ | ⟨s, hs, _, expected⟩ :=
    h.regular.of_has_readable compiled indexed_grammar (known_token known) has
  · obtain ⟨e, he, is⟩ := h.exists_entry i hi
    rw [is.next?_eq_none.mpr (complete e he)] at next
    contradiction
  · refine expected (h.expects_eq_zero compiled ?_ (compiled.known hs List.mem_cons_self))
    intro e he part r next
    rw [complete e he] at next
    contradiction

section Declared

variable {name : Part Terminal Phrase} (h : IsName name)
include h

theorem nameState_reads {sign : String} (mark : IsMark sign) :
  Reads (nameState name) (.sign sign)
  := by
  obtain rfl | rfl := mark
  · exact reads_of_holds (nameState_holds h) (List.mem_cons_of_mem _ List.mem_cons_self) rfl rfl
  · exact reads_of_holds (nameState_holds h) List.mem_cons_self rfl rfl

theorem pointState_reads :
  Reads (pointState name) .identifier
  := reads_of_holds (pointState_holds h) List.mem_cons_self rfl rfl

/-- Before a mark a path is ended, and it is read as one name. -/
theorem pathState_ends {sign : String} (mark : IsMark sign) :
  (pathState name).possible.has (tokenNumber (.sign sign)) = true
    ∧ ∀ qs, Ends grammar (tokenNumber (.sign sign)) 1
      (pathState name :: pointState name :: nameState name :: wordState :: qs)
      (nameState (.named .qualifiedName) :: wordState :: qs)
  := by
  have holds := pathState_holds h
  constructor
  · obtain ⟨i, hi, is⟩ := holds.exists_item _ List.mem_cons_self
    refine holds.regular.has_possible.mpr (.inr ⟨i, hi, is.next?_eq_none.mpr rfl, ?_⟩)
    rw [is.follow]
    exact pathFollow_has mark
  · intro qs
    apply holds.ends_one indexed_grammar List.mem_cons_self rfl (pathFollow_has mark) _ rfl
      (apart_named .qualifiedName (by decide)) _ _ rfl _ (.none _)
    · rw [List.forall_mem_singleton]
      exact fun _ _ => ⟨rfl, rfl⟩
    · intro whole
      exact absurd (congrArg List.length whole) (by simp [pathSpelling])
    · apply unread_of_holds holds _ mark.isTerminal
      rw [List.forall_mem_singleton]
      rfl
    · obtain ⟨i, hi, _⟩ := (nameState_holds (.inr rfl)).exists_item _ List.mem_cons_self
      exact List.ne_nil_of_mem hi

/-- At the end of the text the declaration is ended, and it is the whole text. -/
theorem markState_ends :
  Ends grammar 0 6 [markState name, nameState name, wordState, grammar.startState]
    [partState (.named .text), grammar.startState]
  := by
  have holds := markState_holds h
  have unread : (markState name).readable.has 0 = false := by
    rw [holds.regular.made]
    exact State.not_has_readable_finish indexed_grammar
  apply holds.ends_one indexed_grammar List.mem_cons_self rfl
    (start_finish (.named .packageDeclaration) (by decide)) _ rfl
    (apart_named .packageDeclaration (by decide)) _ unread rfl
    (partState_ne_nil partState_packageDeclaration)
    ends_packageDeclaration
  · rw [List.forall_mem_singleton]
    exact fun _ _ => ⟨rfl, rfl⟩
  · intro whole
    exact absurd (congrArg List.length whole) (by simp [packageSpelling])

end Declared

end SourceAtlas.Java
