import Mathlib.Data.List.DropRight
import SourceAtlas.Proofs.Ordered
import SourceAtlas.Proofs.Text.Classes
import SourceAtlas.Proofs.Text.Covering
import SourceAtlas.Proofs.Text.Split
import SourceAtlas.References

/-!
# Candidate tokens

What the patterns keep of a text is a run of word characters, a list of names behind `implements`,
or a dotted name between `import` and a semicolon (`keptFrom_of_mem_occurrences`): in each pattern
every kept run stands at one of these places (`allPlaced_of_mem_patterns`). Cut at its commas and
trimmed, it gives the candidate tokens. So every token is a part of the text, and its characters
tell from which kind of place it comes (`KeptFrom.imported`, `KeptFrom.implemented`).
-/

namespace SourceAtlas

open Ordered (Increasing)

namespace Text

variable {cs : List Char} {c : Char}

/-! ### Outer blanks -/

theorem trimBlanks_infix (cs : List Char) :
  trimBlanks cs <:+: cs
  := by
  have left : cs.dropWhile isBlank <:+ cs := List.dropWhile_suffix isBlank
  have right : trimBlanks cs <+: cs.dropWhile isBlank := List.rdropWhile_prefix isBlank _
  apply right.isInfix.trans left.isInfix

theorem head_trimBlanks (h : c ∈ (trimBlanks cs).head?) :
  isBlank c = false
  := by
  have right : trimBlanks cs <+: cs.dropWhile isBlank := List.rdropWhile_prefix isBlank _
  obtain ⟨rest, split⟩ := right
  have first : c ∈ (cs.dropWhile isBlank).head? := by
    rw [← split, List.head?_append, h]
    rfl
  have stops := List.head?_dropWhile_not isBlank cs
  rw [first] at stops
  apply stops

theorem getLast_trimBlanks (h : c ∈ (trimBlanks cs).getLast?) :
  isBlank c = false
  := by
  obtain ⟨proper, rfl⟩ := List.mem_getLast?_eq_getLast h
  rw [← Bool.not_eq_true]
  apply List.rdropWhile_last_not

theorem trimBlanks_of_forall (h : ∀ c ∈ cs, isBlank c = false) :
  trimBlanks cs = cs
  := by
  have left : cs.dropWhile isBlank = cs := by
    cases cs with
    | nil => rfl
    | cons c cs => rw [List.dropWhile_cons_of_neg (by simp [h c List.mem_cons_self])]
  rw [trimBlanks, left]
  apply List.rdropWhile_eq_self_iff.mpr
  intro proper
  simp [h _ (List.getLast_mem proper)]

end Text

namespace References

open Text (Piece Pattern isWord isBlank IsRun)
open Text.Pattern (Covers)

variable {cs kept token run : List Char} {p left right : Pattern} {piece : Piece}

/-! ### Tokens of a kept run -/

theorem mem_tokens :
  token ∈ tokens kept ↔ ∃ field ∈ Text.splitOn ',' kept, Text.trimBlanks field = token ∧ token ≠ []
  := by
  simp only [tokens, List.mem_filter, List.mem_map, Bool.not_eq_true', List.isEmpty_eq_false_iff]
  constructor
  · rintro ⟨⟨field, listed, trimmed⟩, proper⟩
    exact ⟨field, listed, trimmed, proper⟩
  · rintro ⟨field, listed, trimmed, proper⟩
    exact ⟨⟨field, listed, trimmed⟩, proper⟩

theorem infix_of_mem_tokens (h : token ∈ tokens kept) :
  token <:+: kept
  := by
  obtain ⟨field, listed, rfl, -⟩ := mem_tokens.mp h
  apply (Text.trimBlanks_infix field).trans (Text.infix_of_mem_splitOn listed)

theorem comma_not_mem_of_mem_tokens (h : token ∈ tokens kept) :
  ',' ∉ token
  := by
  obtain ⟨field, listed, rfl, -⟩ := mem_tokens.mp h
  intro comma
  apply Text.not_mem_of_mem_splitOn listed
  apply (Text.trimBlanks_infix field).subset comma

/-- The characters of a dotted name are neither blanks nor commas. -/
theorem plain_of_word {c : Char} (h : isWord c = true ∨ c = '.') :
  isBlank c = false ∧ c ≠ ','
  := by
  obtain word | rfl := h
  · refine ⟨Text.isBlank_of_isWord word, ?_⟩
    rintro rfl
    simp [Text.isWord_isBlank_of_sign ',' (by simp)] at word
  · exact ⟨(Text.isWord_isBlank_of_sign '.' (by simp)).2, by decide⟩

/-- A run without commas and blanks is a token as it stands. -/
theorem tokens_of_plain (proper : run ≠ []) (plain : ∀ c ∈ run, isBlank c = false ∧ c ≠ ',') :
  tokens run = [run]
  := by
  have uncut : ',' ∉ run := fun comma => (plain ',' comma).2 rfl
  have trimmed : Text.trimBlanks run = run := by
    apply Text.trimBlanks_of_forall
    intro c listed
    apply (plain c listed).1
  rw [tokens, Text.splitOn_of_not_mem uncut, List.map_singleton, trimmed]
  simp [proper]

/-! ### What the patterns keep -/

/-- Where a piece stands in one of the patterns. Names may be kept anywhere, lists of names only
behind `implements` and dotted names only between `import` and a semicolon. -/
inductive Placed : Pattern → Piece → Pattern → Prop where
  | text {left right : Pattern} {chars : List Char} : Placed left (.text chars) right
  | one {left right : Pattern} {accepts : Char → Bool} : Placed left (.one accepts) right
  | pass {left right : Pattern} {least : Nat} {accepts : Char → Bool} :
    Placed left (.longest false least accepts) right
  | name {left right : Pattern} : Placed left name right
  | nameList (left : Pattern) {right : Pattern} :
    Placed (left ++ [word "implements", gap]) nameList right
  | dottedName : Placed [word "import", gap] dottedName [word ";"]

/-- All pieces behind the given ones stand where they may. -/
def AllPlaced (left : Pattern) : Pattern → Prop
  | [] => True
  | piece :: right => Placed left piece right ∧ AllPlaced (left ++ [piece]) right

theorem AllPlaced.placed {front : Pattern} (h : AllPlaced front (left ++ piece :: right)) :
  Placed (front ++ left) piece right
  := by
  induction left generalizing front with
  | nil =>
    rw [List.append_nil]
    apply h.1
  | cons first left ih =>
    have later := ih h.2
    rwa [List.append_assoc] at later

theorem allPlaced_of_mem_patterns :
  ∀ p ∈ patterns, AllPlaced [] p
  := by
  simp only [patterns, List.forall_mem_cons, AllPlaced]
  exact ⟨
    ⟨.text, .pass, .name, .pass, .text, .pass, .name, trivial⟩,
    ⟨.text, .pass, .name, .pass, .text, .pass, .nameList [word "class", gap, name, gap], trivial⟩,
    ⟨.text, .pass, .name, trivial⟩,
    ⟨.text, .pass, .nameList [], trivial⟩,
    ⟨.text, .pass, .name, .pass, .text, trivial⟩,
    ⟨.name, .text, trivial⟩,
    ⟨.text, .name, trivial⟩,
    ⟨.text, .pass, .dottedName, .text, trivial⟩,
    ⟨.name, .text, .pass, .pass, .text, trivial⟩,
    ⟨.name, .text, .pass, .one, trivial⟩,
    List.forall_mem_nil _⟩

/-- A run that is kept of a text, with what stands around it. -/
inductive KeptFrom (cs : List Char) : List Char → Prop where
  | name {before run after : List Char} (split : cs = before ++ run ++ after)
      (words : ∀ c ∈ run, isWord c = true) :
    KeptFrom cs run
  | nameList {before blank run after : List Char}
      (split : cs = before ++ "implements".toList ++ blank ++ run ++ after)
      (blanks : IsRun isBlank blank)
      (names : ∀ c ∈ run, isWord c = true ∨ isBlank c = true ∨ c = ',') :
    KeptFrom cs run
  | dottedName {before blank run after : List Char}
      (split : cs = before ++ "import".toList ++ blank ++ run ++ ';' :: after)
      (blanks : IsRun isBlank blank) (proper : run ≠ [])
      (words : ∀ c ∈ run, isWord c = true ∨ c = '.') :
    KeptFrom cs run

theorem covers_word_gap {w : String} {keptRuns : List (List Char)}
    (h : Covers [word w, gap] cs keptRuns) :
  ∃ blank, cs = w.toList ++ blank ∧ IsRun isBlank blank
  := by
  cases h with
  | cons first others =>
    cases first
    cases others with
    | @cons _ _ blank _ _ _ second others =>
      cases others
      refine ⟨blank, ?_, second.isRun⟩
      rw [List.append_nil]

theorem keptFrom_of_mem_occurrences {o : Text.Occurrence} (hp : p ∈ patterns)
    (ho : o ∈ p.occurrences cs) (listed : run ∈ o.kept) :
  KeptFrom cs run
  := by
  obtain ⟨before, covered, rest, rfl, covers⟩ := Text.Pattern.covers_of_mem_occurrences ho
  obtain ⟨left, least, accepts, right, rfl, a, b, ka, kb, rfl, front, back, long, accepted⟩ :=
    covers.exists_piece listed
  have placed := (allPlaced_of_mem_patterns _ hp).placed
  rw [List.nil_append] at placed
  cases placed with
  | name =>
    have split : before ++ (a ++ run ++ b) ++ rest = (before ++ a) ++ run ++ (b ++ rest) := by simp
    exact .name split accepted
  | nameList left =>
    obtain ⟨a₁, a₂, _, _, rfl, -, back⟩ := front.split
    obtain ⟨blank, rfl, blanks⟩ := covers_word_gap back
    have split : before ++ (a₁ ++ ("implements".toList ++ blank) ++ run ++ b) ++ rest
        = (before ++ a₁) ++ "implements".toList ++ blank ++ run ++ (b ++ rest) := by simp
    apply KeptFrom.nameList split blanks
    simpa [or_assoc] using accepted
  | dottedName =>
    obtain ⟨blank, rfl, blanks⟩ := covers_word_gap front
    cases back with
    | cons first others =>
      cases first
      cases others
      have split : before ++ ("import".toList ++ blank ++ run ++ (";".toList ++ [])) ++ rest
          = before ++ "import".toList ++ blank ++ run ++ ';' :: rest := by simp
      apply KeptFrom.dottedName split blanks (List.ne_nil_of_length_pos long)
      simpa using accepted

namespace KeptFrom

variable (h : KeptFrom cs run) (listed : token ∈ tokens run)
include h

theorem isInfix :
  run <:+: cs
  := by
  cases h with
  | @name before run after split _ => exact ⟨before, after, split.symm⟩
  | @nameList before blank run after split _ _ =>
    exact ⟨before ++ "implements".toList ++ blank, after, split.symm⟩
  | @dottedName before blank run after split _ _ _ =>
    exact ⟨before ++ "import".toList ++ blank, ';' :: after, split.symm⟩

include listed

theorem char_of_mem {c : Char} (here : c ∈ token) :
  isWord c = true ∨ isBlank c = true ∨ c = '.'
  := by
  have within := (infix_of_mem_tokens listed).subset here
  cases h with
  | name _ words => apply Or.inl (words c within)
  | nameList _ _ names =>
    obtain word | blank | rfl := names c within
    · apply Or.inl word
    · apply Or.inr (Or.inl blank)
    · exact absurd here (comma_not_mem_of_mem_tokens listed)
  | dottedName _ _ _ words =>
    obtain word | dot := words c within
    · apply Or.inl word
    · apply Or.inr (Or.inr dot)

/-- A token with a dot is a whole dotted name. -/
theorem imported (dot : '.' ∈ token) :
  ∃ before blank after, cs = before ++ "import".toList ++ blank ++ token ++ ';' :: after
    ∧ IsRun isBlank blank
  := by
  have within := (infix_of_mem_tokens listed).subset dot
  obtain ⟨wordless, blankless⟩ := Text.isWord_isBlank_of_sign '.' (by simp)
  cases h with
  | name _ words => simp [words '.' within] at wordless
  | nameList _ _ names =>
    have := names '.' within
    simp [wordless, blankless] at this
  | @dottedName before blank run after split blanks proper words =>
    have plain : ∀ c ∈ run, isBlank c = false ∧ c ≠ ',' := by
      intro c here
      apply plain_of_word (words c here)
    rw [tokens_of_plain proper plain, List.mem_singleton] at listed
    rw [listed]
    exact ⟨before, blank, after, split, blanks⟩

/-- A token with a blank in it comes from a list of names. -/
theorem implemented {c : Char} (here : c ∈ token) (inner : isBlank c = true) :
  ∃ before blank between after,
    cs = before ++ "implements".toList ++ blank ++ between ++ token ++ after
      ∧ IsRun isBlank blank ∧ ∀ c ∈ between, isWord c = true ∨ isBlank c = true ∨ c = ','
  := by
  have within := (infix_of_mem_tokens listed).subset here
  have wordless := Text.isWord_of_isBlank inner
  cases h with
  | name _ words => simp [words c within] at wordless
  | @nameList before blank run after split blanks names =>
    obtain ⟨between, behind, rfl⟩ := infix_of_mem_tokens listed
    refine ⟨before, blank, between, behind ++ after, ?_, blanks, ?_⟩
    · simp [split]
    · intro d hd
      apply names d
      simp [hd]
  | dottedName _ _ _ words =>
    obtain word | rfl := words c within
    · simp [word] at wordless
    · simp [Text.isWord_isBlank_of_sign '.' (by simp)] at inner

end KeptFrom

/-! ### Candidates and references -/

theorem mem_candidates {text : String} {x : String} :
  x ∈ candidates text
    ↔ ∃ p ∈ patterns, ∃ o ∈ p.occurrences (stripComments text.toList), ∃ run ∈ o.kept,
        x.toList ∈ tokens run
  := by
  simp only [candidates, Ordered.mem_ofList, List.mem_map, List.mem_flatMap, found]
  constructor
  · rintro ⟨token, ⟨p, hp, o, ho, run, listed, here⟩, rfl⟩
    refine ⟨p, hp, o, ho, run, listed, ?_⟩
    rwa [String.toList_ofList]
  · rintro ⟨p, hp, o, ho, run, listed, here⟩
    exact ⟨x.toList, ⟨p, hp, o, ho, run, listed, here⟩, String.ofList_toList⟩

theorem keptFrom_of_mem_candidates {text : String} {x : String} (h : x ∈ candidates text) :
  ∃ run, KeptFrom (stripComments text.toList) run ∧ x.toList ∈ tokens run
  := by
  obtain ⟨p, hp, o, ho, run, listed, here⟩ := mem_candidates.mp h
  exact ⟨run, keptFrom_of_mem_occurrences hp ho listed, here⟩

end References

namespace ReferenceFilter

variable {f : ReferenceFilter} {x : String}

theorem accepts_iff :
  f.accepts x = true
    ↔ x.toList ≠ [] ∧ (f.requireCapital = true → ∃ c ∈ x.toList.head?, Text.isCapital c = true)
      ∧ x ∉ f.excluded
  := by
  rw [accepts]
  cases x.toList with
  | nil => simp
  | cons first rest => cases f.requireCapital <;> simp

@[simp]
theorem mem_references {text : String} :
  x ∈ f.references text ↔ x ∈ References.candidates text ∧ f.accepts x = true
  := by
  simp [references, retain]

theorem increasing_references (f : ReferenceFilter) (text : String) :
  Increasing (f.references text)
  := by
  apply List.Pairwise.filter
  apply Ordered.increasing_ofList

end ReferenceFilter

namespace References

open Text (isWord isBlank IsRun)

/-- The candidate tokens of a text are parts of what is left of it without comments. None is empty
or holds a comma or starts or ends with a blank, and all consist of word characters, blanks and
dots. A token with a dot stands between `import` and a semicolon, and one with a blank in a list of
names behind `implements`. The references are exactly the tokens that start with a capital, where
one is required, and that are not excluded. -/
theorem candidates_stand_in_text (text : String) (f : ReferenceFilter) :
  let cs := stripComments text.toList
  (∀ x ∈ candidates text,
      x.toList ≠ [] ∧ ',' ∉ x.toList
        ∧ (∀ c ∈ x.toList.head?, isBlank c = false)
        ∧ (∀ c ∈ x.toList.getLast?, isBlank c = false)
        ∧ (∀ c ∈ x.toList, isWord c = true ∨ isBlank c = true ∨ c = '.')
        ∧ x.toList <:+: cs
        ∧ ('.' ∈ x.toList →
            ∃ before blank after,
              cs = before ++ "import".toList ++ blank ++ x.toList ++ ';' :: after
                ∧ IsRun isBlank blank)
        ∧ ((∃ c ∈ x.toList, isBlank c = true) →
            ∃ before blank between after,
              cs = before ++ "implements".toList ++ blank ++ between ++ x.toList ++ after
                ∧ IsRun isBlank blank
                ∧ ∀ c ∈ between, isWord c = true ∨ isBlank c = true ∨ c = ','))
    ∧ (∀ x, x ∈ f.references text
        ↔ x ∈ candidates text
          ∧ (f.requireCapital = true → ∃ c ∈ x.toList.head?, Text.isCapital c = true)
          ∧ x ∉ f.excluded)
    ∧ Increasing (candidates text) ∧ Increasing (f.references text)
  := by
  intro cs
  have proper {x : String} (h : x ∈ candidates text) : x.toList ≠ [] := by
    obtain ⟨run, -, listed⟩ := keptFrom_of_mem_candidates h
    obtain ⟨_, _, _, proper⟩ := mem_tokens.mp listed
    apply proper
  and_intros
  · intro x candidate
    obtain ⟨run, kept, listed⟩ := keptFrom_of_mem_candidates candidate
    obtain ⟨field, _, trimmed, _⟩ := mem_tokens.mp listed
    and_intros
    · apply proper candidate
    · apply comma_not_mem_of_mem_tokens listed
    · intro c first
      rw [← trimmed] at first
      apply Text.head_trimBlanks first
    · intro c last
      rw [← trimmed] at last
      apply Text.getLast_trimBlanks last
    · intro c here
      apply kept.char_of_mem listed here
    · apply (infix_of_mem_tokens listed).trans kept.isInfix
    · intro dot
      apply kept.imported listed dot
    · rintro ⟨c, here, inner⟩
      apply kept.implemented listed here inner
  · intro x
    rw [ReferenceFilter.mem_references, ReferenceFilter.accepts_iff]
    constructor
    · rintro ⟨candidate, -, taken⟩
      exact ⟨candidate, taken⟩
    · rintro ⟨candidate, taken⟩
      exact ⟨candidate, proper candidate, taken⟩
  · apply Ordered.increasing_ofList
  · apply ReferenceFilter.increasing_references

end References

end SourceAtlas
