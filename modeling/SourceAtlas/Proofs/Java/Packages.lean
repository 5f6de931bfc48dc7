import SourceAtlas.Proofs.Java.Headers
import SourceAtlas.Proofs.Java.PackageStates

/-!
# Declared packages

A text that holds nothing but a declaration of a package with plain names is read, however it is laid
out (`exists_unit`). The package of every text that is read and starts with such a declaration is the
declared name with the comments in it, so the name does not depend on blanks but on comments.
-/

namespace SourceAtlas.Java

open Parsing

/-! ### Looking for the tokens of a declaration -/

section Scans

variable {q : State} {text : List Char} {o : Nat} {gap : Gap} {cs : List Char}

theorem scan_mark (outside : IsOutside q) {sign : String} {c : Char} (one : sign.toList = [c])
    (known : IsTerminal (.sign sign)) (wanted : q.possible.has (tokenNumber (.sign sign)) = true)
    (mark : c = ';' ∨ c = '.' ∧ StopsPoint cs) (here : text.drop o = gap.written ++ c :: cs) :
  scan q.possible (.inText text o)
    = some ⟨tokenNumber (.sign sign), o + gap.written.length,
      .inText text (o + (gap.written.length + 1))⟩
  := by
  have longest := longestToken_mark one known wanted mark
  have layout : layoutLength 0 (c :: cs) = 0 :=
    layoutLength_mark (mark.elim .inr fun h => .inl h.1) cs
  rw [scan_eq_scanPlain outside, scanPlain_eq here layout longest Nat.one_pos (List.cons_ne_nil c cs),
    Place.skip_inText]
  rfl

/-- The name is no word of the language. -/
def Identifier.IsPlain (name : Identifier) : Prop :=
  ∀ word, IsTerminal (.word word) → word.toList ≠ name.written

/-- The terminal is the word with the given letters. -/
def isWordOf (letters : List Char) : Terminal → Bool
  | .word word => word.toList == letters
  | _ => false

theorem Identifier.isPlain_iff {name : Identifier} :
  (∀ p ∈ Phrase.all, ∀ t ∈ p.form.tokens, isWordOf name.written t = false) ↔ name.IsPlain
  := by
  constructor
  · intro none word known same
    have other := of_isTerminal (P := fun t => isWordOf name.written t = false) rfl none known
    rw [isWordOf, same, beq_self_eq_true] at other
    contradiction
  · intro plain p _ t ht
    cases t with
    | word word => exact beq_false_of_ne (plain word (isTerminal_of_form p ht))
    | _ => rfl

instance (name : Identifier) : Decidable name.IsPlain :=
  decidable_of_iff _ Identifier.isPlain_iff

theorem scan_identifier (outside : IsOutside q)
    (wanted : q.possible.has (tokenNumber .identifier) = true) {name : Identifier}
    (plain : name.IsPlain) (stops : StopsName cs)
    (here : text.drop o = gap.written ++ (name.written ++ cs)) :
  scan q.possible (.inText text o)
    = some ⟨tokenNumber .identifier, o + gap.written.length,
      .inText text (o + (gap.written.length + name.written.length))⟩
  := by
  have has : q.possible.has openTokens.identifier = true := wanted
  have longest : longestToken q.possible (name.written ++ cs)
      = (wordToken q.possible name.written, name.written.length) :=
    name.longestToken_written stops (by rw [has, Bool.true_or])
  rw [wordToken_eq_identifier plain] at longest
  have inhabited : name.written ++ cs ≠ [] := List.cons_ne_nil _ _
  rw [scan_eq_scanPlain outside, scanPlain_eq here (name.layoutLength_written cs) longest
    (Nat.succ_pos _) inhabited, Place.skip_inText]
  rfl

theorem scan_finish (outside : IsOutside q) (here : text.drop o = gap.written) :
  scan q.possible (.inText text o)
    = some ⟨0, o + gap.written.length, .inText text (o + gap.written.length)⟩
  := by
  have layout : layoutLength 0 (Place.inText text o).rest = gap.written.length := by
    have := gap.layoutLength_written []
    rw [List.append_nil] at this
    rw [Place.inText, here, this]
    rfl
  have empty : ((Place.inText text o).rest.drop gap.written.length).isEmpty = true := by
    rw [Place.inText, here, List.drop_length]
    rfl
  rw [scan_eq_scanPlain outside, scanPlain_eq_ite, layout, if_pos empty, Place.skip_inText,
    finish_eq_zero]
  rfl

end Scans

/-! ### Following a declaration -/

section Passes

variable {text : List Char} {o : Nat}

/-- Behind the mark only layout is left. -/
theorem passes_finish {name : Part Terminal Phrase} (h : IsName name) {gap : Gap}
    (here : text.drop o = gap.written) :
  Passes language text o [markState name, nameState name, wordState, grammar.startState]
  := by
  apply Passes.accept (l := language) (scan_finish (markState_outside h) here) (k := 6) (by decide)
    (markState_ends h) partState_accepts (List.cons_ne_nil _ _)

/-- The states on a stack behind a name: before a mark all of the name is read as one. -/
structure BehindName (q : State) (qs : List State) : Prop where
  outside : IsOutside q
  wanted : ∀ sign, IsMark sign → q.possible.has (tokenNumber (.sign sign)) = true
  ends : ∀ sign, IsMark sign → ∃ k name, k < 1024 ∧ IsName name
    ∧ Ends grammar (tokenNumber (.sign sign)) k (q :: qs) [nameState name, wordState, grammar.startState]

theorem behindName_first :
  BehindName (nameState (.token .identifier)) [wordState, grammar.startState]
  := by
  have isName : IsName (.token .identifier) := .inl rfl
  constructor
  · exact nameState_outside isName
  · exact fun sign mark => (nameState_reads isName mark).wanted
  · exact fun sign mark => ⟨0, _, by decide, isName, .none _⟩

theorem behindName_path {name : Part Terminal Phrase} (h : IsName name) :
  BehindName (pathState name) [pointState name, nameState name, wordState, grammar.startState]
  := by
  constructor
  · exact pathState_outside h
  · exact fun sign mark => (pathState_ends h mark).1
  · exact fun sign mark => ⟨1, _, by decide, .inr rfl, (pathState_ends h mark).2 _⟩

/-- A token is read, perhaps after the name before it is ended, and the text goes on behind it. -/
theorem passes_read {q q' : State} {qs qs' : List State} {t : Terminal} {k begins : Nat}
    {a b : List Char} (here : text.drop o = a ++ b) (inhabited : a ≠ [])
    (scanned : scan q.possible (.inText text o)
      = some ⟨tokenNumber t, begins, .inText text (o + a.length)⟩)
    (few : k < 1024) (ends : Ends grammar (tokenNumber t) k (q :: qs) (q' :: qs')) (reads : Reads q' t)
    (rest : ∀ o', text.drop o' = b →
      Passes language text o' (q'.behind grammar (.token (tokenNumber t)) :: q' :: qs')) :
  Passes language text o (q :: qs)
  := by
  have inside : o + a.length ≤ text.length := by
    have lengths := congrArg List.length here
    have pos := List.length_pos_iff.mpr inhabited
    rw [List.length_drop, List.length_append] at lengths
    omega
  apply Passes.read (l := language) scanned few ends reads.choices reads.inhabited rfl _ inside
    (rest _ (drop_add here))
  exact Nat.lt_add_of_pos_right (List.length_pos_iff.mpr inhabited)

/-- A name is read where it is asked for. -/
theorem passes_identifier {q : State} {qs : List State} (outside : IsOutside q)
    (reads : Reads q .identifier) {gap : Gap} {name : Identifier} (plain : name.IsPlain)
    {cs : List Char} (stops : StopsName cs) (here : text.drop o = gap.written ++ (name.written ++ cs))
    (rest : ∀ o', text.drop o' = cs →
      Passes language text o' (q.behind grammar (.token (tokenNumber .identifier)) :: q :: qs)) :
  Passes language text o (q :: qs)
  := by
  have scanned := scan_identifier outside reads.wanted plain stops here
  rw [← List.length_append] at scanned
  apply passes_read (a := gap.written ++ name.written) (by rw [here, List.append_assoc]) _ scanned
    (k := 0) (by decide) (.none _) reads rest
  simp [Identifier.written]

/-- A mark behind a name is read when all of the name is read as one. -/
theorem passes_mark {q : State} {qs : List State} (h : BehindName q qs) {sign : String}
    (mark : IsMark sign) {gap : Gap} {c : Char} {cs : List Char} (one : sign.toList = [c])
    (stops : c = ';' ∨ c = '.' ∧ StopsPoint cs) (here : text.drop o = gap.written ++ c :: cs)
    (rest : ∀ name, IsName name → ∀ o', text.drop o' = cs →
      Passes language text o' [(nameState name).behind grammar (.token (tokenNumber (.sign sign))),
        nameState name, wordState, grammar.startState]) :
  Passes language text o (q :: qs)
  := by
  obtain ⟨k, name, few, isName, ends⟩ := h.ends sign mark
  have scanned := scan_mark h.outside one mark.isTerminal (h.wanted sign mark) stops here
  have length : gap.written.length + 1 = (gap.written ++ [c]).length := by simp
  rw [length] at scanned
  apply passes_read (a := gap.written ++ [c]) (by rw [here, List.append_assoc]; rfl) (by simp) scanned
    few ends (nameState_reads isName mark) (rest name isName)

/-- The points and names behind a name and the mark behind them are followed to the end. -/
theorem passes_parts {parts : List DottedPart} {before rest : Gap} {q : State} {qs : List State}
    (h : BehindName q qs) (plain : ∀ part ∈ parts, part.name.IsPlain)
    (here : text.drop o = writtenParts parts before rest.written) :
  Passes language text o (q :: qs)
  := by
  induction parts generalizing o q qs with
  | nil =>
    apply passes_mark h (.inr rfl) rfl (.inl rfl) here
    intro name isName o' behind
    exact passes_finish isName behind
  | cons part parts ih =>
    obtain ⟨plainName, plainNames⟩ := List.forall_mem_cons.mp plain
    rw [writtenParts_cons] at here
    have stops : StopsPoint (part.behind.written ++ (part.name.written
        ++ writtenParts parts before rest.written)) := part.behind.stopsPoint part.name.stopsPoint
    apply passes_mark h (.inl rfl) rfl (.inr ⟨rfl, stops⟩) here
    intro name isName o' behind
    apply passes_identifier (pointState_outside isName) (pointState_reads isName) plainName
      (stopsName_writtenParts parts before rest.written) behind
    intro o'' behind
    exact ih (behindName_path isName) plainNames behind

/-- A declaration of a package with plain names and nothing but layout behind it is followed to the
end. -/
theorem passes_header {h : PackageHeader} (plain : ∀ name ∈ h.name.names, name.IsPlain) {rest : Gap}
    (here : text.drop o = h.writtenBefore rest.written) :
  Passes language text o [grammar.startState]
  := by
  have start : Reads grammar.startState (.word "package") := by
    refine ⟨start_regular.has_possible.mpr (.inl start_package.1), start_package.2, ?_⟩
    obtain ⟨i, hi, _⟩ := wordState_holds.exists_item _ List.mem_cons_self
    exact List.ne_nil_of_mem hi
  obtain ⟨plainFirst, plainNames⟩ := List.forall_mem_cons.mp plain
  have scanned := scan_package here (h.stopsName_behind _)
  rw [← List.length_append] at scanned
  apply passes_read (a := h.lead.written ++ packageWord.written)
    (by rw [here, PackageHeader.writtenBefore, List.append_assoc]) _ scanned (k := 0) (by decide)
    (.none _) start
  · intro o' behind
    rw [h.name_written] at behind
    apply passes_identifier wordState_outside wordState_reads plainFirst
      (stopsName_writtenParts _ _ _) behind
    intro o'' behind
    have states : wordState.behind grammar (.token (tokenNumber .identifier))
        = nameState (.token .identifier) := by
      rw [nameState, symbol_token]
    rw [states]
    apply passes_parts behindName_first _ behind
    intro part mem
    exact plainNames part.name (List.mem_map_of_mem mem)
  · simp [Identifier.written]

end Passes

/-! ### The package of a text -/

section Units

variable {h : PackageHeader}

/-- A declaration of a package with plain names is read if nothing but layout follows it. -/
theorem exists_unit (plain : ∀ name ∈ h.name.names, name.IsPlain) (rest : Gap) :
  ∃ unit, parseUnit (.ofList (h.writtenBefore rest.written)) = .ok unit
  := by
  have passes : Passes language (h.writtenBefore rest.written) 0 [grammar.startState] :=
    passes_header plain rfl
  have read := passes.read_ne_nil
  unfold parseUnit
  dsimp only
  rw [String.toList_ofList, h.markLength_written]
  split
  · exact ⟨_, rfl⟩
  · split
    · exact ⟨_, rfl⟩
    · next none => exact absurd none read

/-- The package of a text that is read and starts with its only declaration of a package. -/
theorem package_of_parseUnit {rest : List Char} (single : ¬ "package".toList <:+: rest)
    {unit : ParsedUnit} (read : parseUnit (.ofList (h.writtenBefore rest)) = .ok unit) :
  unit.package = some (.ofList h.name.shown)
  := by
  obtain ⟨statements, written, rfl⟩ := exists_written read
  exact package_of_written String.toList_ofList single written

/-- The package of a text does not depend on the blanks in its declaration, but the comments between
its names are kept: it is the plain name exactly if there are none, and so are the full names of the
types of the text. A text is refused only if a name is a word of the language or if more than layout
follows the declaration. -/
theorem parseUnit_keeps_comments_of_package (h : PackageHeader)
    (rest : { cs : List Char // ¬ "package".toList <:+: cs }) :
  match parseUnit (.ofList (h.writtenBefore rest)) with
  | .ok unit => unit.package = some (.ofList h.name.shown)
      ∧ (unit.package = some (.ofList h.name.plain) ↔ h.name.hasComment = false)
      ∧ ∀ origin, (unit.infos origin).map TypeInfo.fullName
        = unit.types.map fun type => .ofList h.name.shown ++ "." ++ type.name
  | .error e => (∃ offset, e = .parse none (syntaxError (h.writtenBefore rest) offset))
      ∧ ((∃ name ∈ h.name.names, ¬ name.IsPlain) ∨ ∀ gap : Gap, gap.written ≠ rest)
  := by
  split
  · next unit read =>
    have package := package_of_parseUnit rest.property read
    have packageName : unit.packageName = .ofList h.name.shown := by
      rw [ParsedUnit.packageName, package, Option.getD_some]
    refine ⟨package, ?_, ?_⟩
    · rw [package, Option.some_inj, String.ofList_inj, DottedName.shown_eq_plain]
    · intro origin
      rw [ParsedUnit.infos, List.map_map]
      apply List.map_congr_left
      intro type _
      have fullName : (unit.info origin type).fullName = qualify unit.packageName type.name := rfl
      rw [Function.comp_apply, fullName, packageName, qualify]
  · next e refused =>
    constructor
    · have syntaxError := eq_syntaxError refused
      rwa [String.toList_ofList] at syntaxError
    · by_contra accepted
      push Not at accepted
      obtain ⟨plain, gap, same⟩ := accepted
      obtain ⟨unit, read⟩ := exists_unit plain gap
      rw [same, refused] at read
      contradiction

/-- A name of one letter. -/
def letterName (c : Char) (isStart : isIdentifierStart c = true) : Identifier where
  first := c
  more := []
  isStart := isStart
  isPart := nofun

/-- A declaration of a package with a comment behind the point. -/
def commentedHeader : PackageHeader where
  lead := []
  behind := [.blank ' ' rfl]
  apart := nofun
  name := ⟨letterName 'a' rfl, [⟨[], [.block [] (by decide)], letterName 'b' rfl⟩]⟩
  before := []

theorem package_depends_on_comment :
  ∃ unit, parseUnit "package a./**/b;" = .ok unit ∧ unit.package = some "a./**/b"
    ∧ unit.package ≠ some "a.b"
  := by
  have text : "package a./**/b;" = .ofList (commentedHeader.writtenBefore (Gap.written [])) := by
    decide
  have plain : ∀ name ∈ commentedHeader.name.names, name.IsPlain := by decide +kernel
  obtain ⟨unit, read⟩ := exists_unit plain []
  have package := package_of_parseUnit (by decide) read
  have shown : String.ofList commentedHeader.name.shown = "a./**/b" := by decide +kernel
  rw [shown] at package
  refine ⟨unit, text ▸ read, package, ?_⟩
  rw [package]
  decide

end Units

end SourceAtlas.Java
