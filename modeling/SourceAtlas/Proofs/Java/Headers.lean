import Mathlib.Algebra.GroupWithZero.Nat
import SourceAtlas.Proofs.Java.Opening
import SourceAtlas.Proofs.Java.Units

/-!
# Declarations of packages in a text

A declaration of a package at the start of a text, laid out in any way: with blanks and comments
between the word, the names, the points and the mark behind them (`PackageHeader`). If the text is read
its package is the written name without its blanks, but with the comments between the names
(`package_of_written`), so it is the plain name exactly if there are none (`DottedName.shown_eq_plain`).
-/

namespace SourceAtlas.Java

open Parsing
open Parsing.Grammar (Spelling)

/-! ### Layout of a declaration -/

/-- What is kept of a blank or a comment inside of a name. -/
def Trivia.kept (t : Trivia) : List Char :=
  if t.isComment then t.written.filter fun c => !Text.isBlank c else []

/-- What is kept of the characters between two tokens inside of a name. -/
def Gap.kept (gap : Gap) : List Char :=
  gap.flatMap Trivia.kept

/-- A name behind a point, with what stands before the point and behind it. -/
structure DottedPart where
  before : Gap
  behind : Gap
  name : Identifier

/-- Names with points in between, and with layout around the points. -/
structure DottedName where
  first : Identifier
  more : List DottedPart

namespace DottedPart

/-- The characters of the point and the name. -/
def written (part : DottedPart) : List Char :=
  part.before.written ++ '.' :: (part.behind.written ++ part.name.written)

/-- The point and the name with the comments around the point. -/
def shown (part : DottedPart) : List Char :=
  part.before.kept ++ '.' :: (part.behind.kept ++ part.name.written)

/-- The point and the name alone. -/
def plain (part : DottedPart) : List Char :=
  '.' :: part.name.written

/-- There is a comment before the point or behind it. -/
def hasComment (part : DottedPart) : Bool :=
  part.before.any Trivia.isComment || part.behind.any Trivia.isComment

end DottedPart

namespace DottedName

/-- The characters from the first name to the last one. -/
def written (n : DottedName) : List Char :=
  n.first.written ++ n.more.flatMap DottedPart.written

/-- The names and points with the comments between them. -/
def shown (n : DottedName) : List Char :=
  n.first.written ++ n.more.flatMap DottedPart.shown

/-- The names and points alone. -/
def plain (n : DottedName) : List Char :=
  n.first.written ++ n.more.flatMap DottedPart.plain

/-- The names from the first to the last. -/
def names (n : DottedName) : List Identifier :=
  n.first :: n.more.map DottedPart.name

/-- There is a comment between the first name and the last one. -/
def hasComment (n : DottedName) : Bool :=
  n.more.any DottedPart.hasComment

end DottedName

/-- A declaration of a package at the start of a text. -/
structure PackageHeader where
  lead : Gap
  /-- What stands between the word and the name. -/
  behind : Gap
  apart : behind ≠ []
  name : DottedName
  /-- What stands before the mark. -/
  before : Gap

/-- The characters of the declaration, up to the mark behind it, and what follows. -/
def PackageHeader.writtenBefore (h : PackageHeader) (rest : List Char) : List Char :=
  h.lead.written ++ (packageWord.written ++ (h.behind.written ++ (h.name.written
    ++ (h.before.written ++ ';' :: rest))))

/-! ### What is kept of a name -/

section Kept

theorem Identifier.filter_written (name : Identifier) :
  name.written.filter (fun c => !Text.isBlank c) = name.written
  := by
  rw [List.filter_eq_self]
  intro c hc
  rw [Bool.not_eq_true', ← Bool.not_eq_true]
  intro blank
  obtain ⟨notStart, notPart⟩ := isIdentifier_of_isBlank blank
  obtain rfl | more := List.mem_cons.mp hc
  · rw [name.isStart] at notStart
    contradiction
  · rw [name.isPart c more] at notPart
    contradiction

theorem Trivia.filter_written (t : Trivia) :
  t.written.filter (fun c => !Text.isBlank c) = t.kept
  := by
  cases t with
  | blank c space => simp [Trivia.written, Trivia.kept, Trivia.isComment, isBlank_of_isSpace space]
  | line body inside => rfl
  | block body inside => rfl

theorem Gap.filter_written (gap : Gap) :
  gap.written.filter (fun c => !Text.isBlank c) = gap.kept
  := by
  rw [Gap.written, Gap.kept, List.filter_flatMap]
  congr 1
  funext t
  exact t.filter_written

theorem DottedPart.filter_written (part : DottedPart) :
  part.written.filter (fun c => !Text.isBlank c) = part.shown
  := by
  have point : (!Text.isBlank '.') = true := by decide +kernel
  rw [DottedPart.written, DottedPart.shown, List.filter_append,
    List.filter_cons_of_pos (p := fun c => !Text.isBlank c) point, List.filter_append,
    Gap.filter_written, Gap.filter_written, Identifier.filter_written]

/-- Without blanks the names and points are left, and the comments between them. -/
theorem DottedName.filter_written (n : DottedName) :
  n.written.filter (fun c => !Text.isBlank c) = n.shown
  := by
  rw [DottedName.written, DottedName.shown, List.filter_append, List.filter_flatMap,
    Identifier.filter_written]
  congr 2
  funext part
  exact part.filter_written

theorem Gap.kept_eq_nil {gap : Gap} :
  gap.kept = [] ↔ gap.any Trivia.isComment = false
  := by
  rw [Gap.kept, List.flatMap_eq_nil_iff, List.any_eq_false]
  refine forall₂_congr fun t _ => ?_
  have slash : (!Text.isBlank '/') = true := by decide +kernel
  cases t with
  | blank c space => simp [Trivia.kept, Trivia.isComment]
  | line body inside => simp [Trivia.kept, Trivia.isComment, Trivia.written, slash]
  | block body inside => simp [Trivia.kept, Trivia.isComment, Trivia.written, slash]

theorem DottedPart.hasComment_eq_false {part : DottedPart} :
  part.hasComment = false ↔ part.before.kept = [] ∧ part.behind.kept = []
  := by
  rw [DottedPart.hasComment, Bool.or_eq_false_iff, Gap.kept_eq_nil, Gap.kept_eq_nil]

/-- What is shown is longer than the names and points by what is kept of the layout. -/
theorem DottedName.length_shown (parts : List DottedPart) :
  (parts.flatMap DottedPart.shown).length = (parts.flatMap DottedPart.plain).length
    + (parts.map fun part => part.before.kept.length + part.behind.kept.length).sum
  := by
  induction parts with
  | nil => rfl
  | cons part parts ih =>
    simp only [List.flatMap_cons, List.length_append, ih, List.map_cons, List.sum_cons,
      DottedPart.shown, DottedPart.plain, List.length_cons]
    omega

/-- A name is shown plainly exactly if there is no comment in it. -/
theorem DottedName.shown_eq_plain {n : DottedName} :
  n.shown = n.plain ↔ n.hasComment = false
  := by
  simp only [shown, plain, hasComment, List.append_cancel_left_eq, List.any_eq_false,
    Bool.not_eq_true, DottedPart.hasComment_eq_false]
  constructor
  · intro same part hp
    have lengths := length_shown n.more
    rw [same, Nat.left_eq_add, List.sum_eq_zero_iff_forall_eq_nat] at lengths
    have none := lengths _ (List.mem_map_of_mem hp)
    rw [Nat.add_eq_zero_iff, List.length_eq_zero_iff, List.length_eq_zero_iff] at none
    exact none
  · intro none
    apply List.flatMap_congr
    intro part hp
    rw [DottedPart.shown, DottedPart.plain, (none part hp).1, (none part hp).2]
    rfl

end Kept

/-! ### The first statement -/

section First

theorem leftClosed_leadsToPackage :
  Spelling.LeftClosed spellings (.word "package") fun part => leadsToPackage part = true
  := by
  intro s hs part first begins
  apply (spellings_table s hs).2.2.1
  rw [first, Option.any_some]
  obtain rfl | begins := begins
  · decide
  · exact begins

/-- The first of some tokens is the word for packages. -/
def StartsWithPackage (leaves : List Leaf) : Prop :=
  leaves.head?.map Leaf.token = some (tokenNumber (.word "package"))

theorem StartsWithPackage.leads {p : Phrase} {x : Parsed p} {leaves : List Leaf}
    (h : StartsWithPackage (x.tree.leaves ++ leaves)) :
  leadsToPackage (.named p) = true
  := by
  rw [StartsWithPackage, List.head?_append_of_ne_nil _ x.derived.leaves_ne_nil, tokenNumber_eq] at h
  have symbol : x.tree.symbol = numbering.symbol (.named p) := by
    rw [x.symbol, ruleNumber_eq]
    rfl
  obtain same | leads := compiled.of_head?_leaves isTerminal_package leftClosed_leadsToPackage
    x.derived (known_named p) symbol h
  · contradiction
  · exact leads

theorem StartsWithPackage.token {t : Terminal} {x : Token t} {leaves : List Leaf}
    (h : StartsWithPackage (x.leaf :: leaves)) :
  t = .word "package"
  := ((tokenNumber_inj isTerminal_package).mp (Option.some.inj h).symm).symm

/-- A statement that starts with the word for packages declares a package, without annotations. -/
theorem Statement.exists_package {s : Statement} (h : StartsWithPackage s.leaves) :
  ∃ d : PackageDeclaration, s = .package d ∧ d.leaves = d.word.leaf :: d.path.leaves ++ [d.mark.leaf]
  := by
  cases s with
  | package d =>
    refine ⟨d, rfl, ?_⟩
    rw [Statement.leaves, PackageDeclaration.leaves] at h
    rw [PackageDeclaration.leaves]
    cases annotations : d.annotations with
    | nil => rfl
    | cons x xs =>
      rw [annotations, leavesOf, List.flatMap_cons, List.append_assoc, List.append_assoc] at h
      exact absurd h.leads (by decide)
  | type d =>
    exfalso
    rw [Statement.leaves, TypeDeclaration.leaves] at h
    simp only [List.append_assoc] at h
    cases modifiers : d.modifiers with
    | none =>
      rw [modifiers] at h
      have word := h.token
      generalize d.kind = kind at word
      cases kind <;> simp [kindWord] at word
    | some x =>
      rw [modifiers, Option.toList_some, leavesOf, List.flatMap_singleton] at h
      exact absurd h.leads (by decide)
  | empty mark => exact absurd (StartsWithPackage.token h) (by decide)
  | @other p known x =>
    exfalso
    have others : ∀ p ∈ otherPhrases, leadsToPackage (.named p) = false := by decide
    rw [Statement.leaves, ← List.append_nil x.tree.leaves] at h
    exact absurd h.leads (Bool.eq_false_iff.mp (others p known))

end First

/-! ### Where the tokens of a declaration stand -/

section Positions

variable {text : List Char} {start o stop : Nat}

theorem drop_add {a b : List Char} (h : text.drop o = a ++ b) :
  text.drop (o + a.length) = b
  := by
  rw [← List.drop_drop, h, List.drop_left]

theorem layoutLength_mark {c : Char} (mark : c = '.' ∨ c = ';') (cs : List Char) :
  layoutLength 0 (c :: cs) = 0
  := by
  obtain rfl | rfl := mark <;> exact layoutLength_eq_zero (by decide) (by decide)

theorem stopsName_mark {c : Char} (mark : c = '.' ∨ c = ';') (cs : List Char) :
  StopsName (c :: cs)
  := by
  intro d hd
  obtain rfl := Option.some.inj hd
  obtain rfl | rfl := mark <;> decide

/-- Points and names behind a name, and then the mark. -/
def writtenParts (parts : List DottedPart) (before : Gap) (rest : List Char) : List Char :=
  parts.flatMap DottedPart.written ++ (before.written ++ ';' :: rest)

theorem writtenParts_cons (part : DottedPart) (parts : List DottedPart) (before : Gap)
    (rest : List Char) :
  writtenParts (part :: parts) before rest
    = part.before.written ++ ('.' :: (part.behind.written
      ++ (part.name.written ++ writtenParts parts before rest)))
  := by
  simp [writtenParts, DottedPart.written]

theorem stopsName_writtenParts (parts : List DottedPart) (before : Gap) (rest : List Char) :
  StopsName (writtenParts parts before rest)
  := by
  cases parts with
  | nil => exact before.stopsName (stopsName_mark (.inr rfl) rest)
  | cons part parts =>
    rw [writtenParts_cons]
    exact part.before.stopsName (stopsName_mark (.inl rfl) _)

/-- The point and the name of a part are found where they are written. -/
theorem DottedPart.found (part : DottedPart) {dot : Token (.sign ".")} {name : Token .identifier}
    (foundDot : Found language text start o dot.leaf)
    (foundName : Found language text start dot.leaf.stop name.leaf) {cs : List Char}
    (here : text.drop o
      = part.before.written ++ ('.' :: (part.behind.written ++ (part.name.written ++ cs))))
    (stops : StopsName cs) :
  name.leaf.stop = o + part.written.length ∧ text.drop name.leaf.stop = cs
  := by
  have none := layoutLength_mark (.inl rfl) (part.behind.written ++ (part.name.written ++ cs))
  obtain ⟨_, stopsDot⟩ := found_sign foundDot isTerminal_point rfl (by decide) here none
  have behind : text.drop dot.leaf.stop = part.behind.written ++ (part.name.written ++ cs) := by
    rw [stopsDot, ← List.drop_drop, drop_add here]
    rfl
  obtain ⟨begins, ends⟩ := found_identifier foundName rfl behind stops
  constructor
  · have one : ".".toList.length = 1 := rfl
    rw [ends, begins, stopsDot, one, DottedPart.written, List.length_append, List.length_cons,
      List.length_append]
    omega
  · rw [ends, begins, ← List.drop_drop, drop_add behind, List.drop_left]

/-- The tokens of a path behind its first name are the points and names that are written, and the
mark is found behind the last of them. -/
theorem chain_parts {parts : List DottedPart} {before : Gap} {rest : List Char}
    {tokens : List (Token (.sign ".") × Token .identifier)} {mark : Token (.sign ";")}
    (chain : Chain language text start o
      (tokens.flatMap (fun (dot, name) => [dot.leaf, name.leaf]) ++ [mark.leaf]) stop)
    (here : text.drop o = writtenParts parts before rest) :
  ((tokens.map fun (_, name) => name.stop).getLast?).getD o
      = o + (parts.flatMap DottedPart.written).length
    ∧ text.drop stop = rest
  := by
  induction parts generalizing tokens o with
  | nil =>
    have here : text.drop o = before.written ++ ';' :: rest := here
    have none := layoutLength_mark (.inr rfl) rest
    cases tokens with
    | nil =>
      cases chain with
      | cons found more =>
        obtain ⟨_, stops⟩ := found_sign found isTerminal_semicolon rfl (by decide) here none
        cases more
        refine ⟨rfl, ?_⟩
        rw [stops, ← List.drop_drop, drop_add here]
        rfl
    | cons pair tokens =>
      cases chain with
      | cons found more =>
        obtain ⟨starts, _⟩ := found_sign found isTerminal_point rfl (by decide) here none
        exact absurd (List.cons_prefix_cons.mp starts).1 (by decide)
  | cons part parts ih =>
    rw [writtenParts_cons] at here
    cases tokens with
    | nil =>
      cases chain with
      | cons found more =>
        have none := layoutLength_mark (.inl rfl) (part.behind.written ++ (part.name.written
          ++ writtenParts parts before rest))
        obtain ⟨starts, _⟩ := found_sign found isTerminal_semicolon rfl (by decide) here none
        exact absurd (List.cons_prefix_cons.mp starts).1 (by decide)
    | cons pair tokens =>
      obtain ⟨dot, name⟩ := pair
      cases chain with
      | cons foundDot more =>
        cases more with
        | cons foundName more =>
          obtain ⟨ends, last⟩ := part.found foundDot foundName here
            (stopsName_writtenParts parts before rest)
          obtain ⟨stops, marked⟩ := ih more last
          refine ⟨?_, marked⟩
          have leaf : name.leaf.stop = name.stop := rfl
          rw [leaf] at stops ends
          rw [List.map_cons, List.getLast?_cons, Option.getD_some, stops, ends, List.flatMap_cons,
            List.length_append, Nat.add_assoc]

theorem FirstName.found {first : FirstName} (found : Found language text start o first.leaf)
    {gap : Gap} {name : Identifier} {cs : List Char}
    (here : text.drop o = gap.written ++ (name.written ++ cs)) (stops : StopsName cs) :
  first.leaf.start = o + gap.written.length
    ∧ first.leaf.stop = first.leaf.start + name.written.length
  := by
  cases first with
  | plain token => exact found_identifier found rfl here stops
  | soft word known token =>
    have terminals : ∀ word ∈ softWords, Terminal.word word ∈ Phrase.softWord.form.tokens := by decide
    exact found_word found (isTerminal_of_form .softWord (terminals word known)) rfl here stops

theorem Statement.leaves_ne_nil (s : Statement) :
  s.leaves ≠ []
  := by
  cases s with
  | package d => simp [Statement.leaves, PackageDeclaration.leaves]
  | type d => simp [Statement.leaves, TypeDeclaration.leaves]
  | empty mark => simp [Statement.leaves]
  | other _ x => exact x.derived.leaves_ne_nil

end Positions

/-! ### The package of a text -/

section Package

variable {h : PackageHeader} {rest : List Char}

theorem PackageHeader.markLength_written :
  markLength (h.writtenBefore rest) = 0
  := by
  have low : ∀ c cs, c.toNat < 0xFEFF → markLength (c :: cs) = 0 := by
    intro c cs low
    rw [markLength, if_neg]
    rw [beq_iff_eq]
    omega
  rw [writtenBefore]
  cases h.lead with
  | nil => exact low 'p' _ (by decide)
  | cons t gap =>
    cases t with
    | blank c space =>
      have := lt_of_isSpace space
      exact low c _ (by omega)
    | line body inside => exact low '/' _ (by decide)
    | block body inside => exact low '/' _ (by decide)

/-- What stands behind the word for packages ends it. -/
theorem PackageHeader.stopsName_behind (cs : List Char) :
  StopsName (h.behind.written ++ cs)
  := Gap.stopsName_of_ne_nil h.apart cs

theorem PackageHeader.name_written :
  h.name.written ++ (h.before.written ++ ';' :: rest)
    = h.name.first.written ++ writtenParts h.name.more h.before rest
  := by
  rw [DottedName.written, writtenParts, List.append_assoc]

/-- The declaration of a package that is written at the start of a text is found with the name that is
written, and the text goes on behind its mark. -/
theorem PackageDeclaration.shown_of_chain {d : PackageDeclaration} {text : List Char} {stop : Nat}
    (leaves : d.leaves = d.word.leaf :: d.path.leaves ++ [d.mark.leaf])
    (chain : Chain language text 0 0 d.leaves stop) (written : text = h.writtenBefore rest) :
  d.path.shown text.toArray = String.ofList h.name.shown ∧ text.drop stop = rest
  := by
  have here : text.drop 0 = h.lead.written ++ (packageWord.written ++ (h.behind.written
      ++ (h.name.written ++ (h.before.written ++ ';' :: rest)))) := written
  rw [leaves, Path.leaves] at chain
  cases chain with
  | cons foundWord chain =>
    obtain ⟨_, stopsWord⟩ := found_package foundWord here (h.stopsName_behind _)
    have behindWord : text.drop d.word.leaf.stop
        = h.behind.written ++ (h.name.first.written ++ writtenParts h.name.more h.before rest) := by
      rw [stopsWord, ← List.length_append]
      apply drop_add
      rw [here, List.append_assoc, h.name_written]
    cases chain with
    | cons foundFirst chain =>
      obtain ⟨begins, ends⟩ := FirstName.found foundFirst behindWord (stopsName_writtenParts _ _ _)
      have atFirst : text.drop d.path.first.leaf.start
          = h.name.written ++ (h.before.written ++ ';' :: rest) := by
        rw [begins, drop_add behindWord, h.name_written]
      have behindFirst : text.drop d.path.first.leaf.stop
          = writtenParts h.name.more h.before rest := by
        rw [ends, ← List.drop_drop, atFirst, h.name_written, List.drop_left]
      obtain ⟨last, marked⟩ := chain_parts chain behindFirst
      refine ⟨?_, marked⟩
      have length : d.path.stop - d.path.first.leaf.start = h.name.written.length := by
        rw [Path.stop, last, ends, DottedName.written, List.length_append]
        omega
      rw [Path.shown, Array.toList_extract, List.extract_eq_take_drop, length, atFirst, List.take_left,
        DottedName.filter_written]

/-- The first statement of a text that starts with a declaration of a package is this declaration, and
the tokens of the others are found behind its mark. The word for packages begins nothing but their
declarations. -/
theorem exists_declaration_of_written {source : String} (text : source.toList = h.writtenBefore rest)
    {statements : List Statement} (written : Written source statements) :
  ∃ d later middle stop, statements = .package d :: later
    ∧ d.path.shown source.toList.toArray = String.ofList h.name.shown
    ∧ Chain language source.toList 0 middle (later.flatMap Statement.leaves) stop
    ∧ source.toList.drop middle = rest
  := by
  have unmarked : markLength source.toList = 0 := by rw [text, h.markLength_written]
  have here : source.toList.drop 0 = h.lead.written ++ (packageWord.written ++ (h.behind.written
      ++ (h.name.written ++ (h.before.written ++ ';' :: rest)))) := text
  have first : ∀ {leaf : Leaf}, Found language source.toList 0 0 leaf →
      leaf.token = tokenNumber (.word "package") :=
    fun found => (found_package found here (h.stopsName_behind _)).1
  cases written with
  | layout only =>
    rw [unmarked, here, Gap.layoutLength_written, packageWord.layoutLength_written] at only
    simp [packageWord, Identifier.written] at only
  | tree read reading made =>
    obtain ⟨-, -, stop, chain, finish, found, isFinish⟩ := reading
    rw [unmarked] at chain found
    rw [← made.leaves] at chain
    cases statements with
    | nil =>
      cases chain
      rw [first found, tokenNumber_eq_zero isTerminal_package] at isFinish
      contradiction
    | cons s later =>
      rw [List.flatMap_cons] at chain
      obtain ⟨middle, chain, chainLater⟩ := chain.split
      have starts : StartsWithPackage s.leaves := by
        obtain ⟨leaf, leaves, split⟩ := List.exists_cons_of_ne_nil s.leaves_ne_nil
        rw [split] at chain ⊢
        cases chain with
        | cons found more => exact congrArg some (first found)
      obtain ⟨d, rfl, leaves⟩ := Statement.exists_package starts
      obtain ⟨shown, marked⟩ := PackageDeclaration.shown_of_chain leaves chain text
      exact ⟨d, later, middle, stop, rfl, shown, chainLater, marked⟩

/-- Where a declaration of a package is found, the word for packages stands in the text. -/
theorem PackageDeclaration.infix_of_chain {d : PackageDeclaration} {statements : List Statement}
    (hd : .package d ∈ statements) {text : List Char} {o stop : Nat}
    (chain : Chain language text 0 o (statements.flatMap Statement.leaves) stop) :
  "package".toList <:+: text.drop o
  := by
  have mem : d.word.leaf ∈ statements.flatMap Statement.leaves :=
    List.mem_flatMap.mpr ⟨_, hd, by simp [Statement.leaves, PackageDeclaration.leaves]⟩
  obtain ⟨o', le, found⟩ := chain.exists_found language_lawful mem
  have word := infix_of_found found isTerminal_package rfl
  have behind : text.drop o' <:+ text.drop o := by
    rw [← Nat.add_sub_cancel' le, ← List.drop_drop]
    apply List.drop_suffix
  exact word.trans behind.isInfix

/-- The package of a text that starts with a declaration of a package, and in which the word for
packages does not occur again. -/
theorem package_of_written {source : String} (text : source.toList = h.writtenBefore rest)
    (single : ¬ "package".toList <:+: rest) {statements : List Statement}
    (written : Written source statements) :
  (statements.filterMap (Statement.package? source.toList.toArray)).getLast?
    = some (String.ofList h.name.shown)
  := by
  obtain ⟨d, later, middle, stop, rfl, shown, chain, marked⟩ :=
    exists_declaration_of_written text written
  have none : later.filterMap (Statement.package? source.toList.toArray) = [] := by
    apply List.filterMap_eq_nil_iff.mpr
    intro s hs
    cases s with
    | package d' => exact absurd (marked ▸ PackageDeclaration.infix_of_chain hs chain) single
    | _ => rfl
  have package : Statement.package? source.toList.toArray (.package d)
      = some (String.ofList h.name.shown) := congrArg some shown
  rw [List.filterMap_cons_some package, none, List.getLast?_singleton]

end Package

end SourceAtlas.Java
