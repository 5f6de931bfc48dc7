import Mathlib.Data.List.Infix
import SourceAtlas.Java.Lexer
import SourceAtlas.Proofs.Lists
import SourceAtlas.Proofs.Text.Classes

/-!
# Layout and names

What stands between two tokens is a row of blanks and comments (`Trivia`), and looking for a token
passes over all of it (`Gap.layoutLength_written`). A name is not layout, and it reaches up to what is
no letter (`Identifier.wordLength_written`).
-/

namespace SourceAtlas.Java

/-! ### Layout -/

/-- A blank or a comment. -/
inductive Trivia where
  | blank (c : Char) (space : isSpace c = true)
  /-- A comment up to the end of its line. -/
  | line (body : List Char) (inside : '\n' ∉ body)
  | block (body : List Char) (inside : ¬ ['*', '/'] <:+: body)

namespace Trivia

/-- The characters of a blank or a comment. -/
def written : Trivia → List Char
  | blank c _ => [c]
  | line body _ => '/' :: '/' :: (body ++ ['\n'])
  | block body _ => '/' :: '*' :: (body ++ ['*', '/'])

/-- It is a comment. -/
def isComment : Trivia → Bool
  | blank _ _ => false
  | line _ _ => true
  | block _ _ => true

end Trivia

/-- What stands between two tokens. -/
abbrev Gap := List Trivia

/-- The characters between two tokens. -/
def Gap.written (gap : Gap) : List Char :=
  gap.flatMap Trivia.written

theorem blockEnd_append {body : List Char} (inside : ¬ ['*', '/'] <:+: body) (rest : List Char) :
  blockEnd (body ++ '*' :: '/' :: rest) = some (body.length + 2)
  := by
  induction body with
  | nil => rfl
  | cons c body ih =>
    have later : ¬ ['*', '/'] <:+: body := fun h => inside (h.trans (List.suffix_cons c body).isInfix)
    have here : ∀ tail, c = '*' → body ++ '*' :: '/' :: rest = '/' :: tail → False := by
      rintro tail rfl same
      cases body with
      | nil => simp at same
      | cons d body =>
        obtain ⟨rfl, _⟩ := List.cons.inj same
        exact inside (List.IsPrefix.isInfix ⟨body, rfl⟩)
    rw [List.cons_append, blockEnd, ih later, Option.map_some, List.length_cons, Nat.add_right_comm]
    exact here

theorem layoutLength_inside (inside : List Char) (rest : List Char) :
  layoutLength inside.length (inside ++ rest) = inside.length + layoutLength 0 rest
  := by
  induction inside with
  | nil => simp
  | cons c inside ih =>
    rw [List.length_cons, List.cons_append, layoutLength, ih]
    omega

/-- A comment is passed over as a whole. -/
theorem layoutLength_comment {c : Char} {body rest : List Char} (space : isSpace c = false)
    (comment : commentLength (c :: body ++ rest) = some (body.length + 1)) :
  layoutLength 0 (c :: body ++ rest) = body.length + 1 + layoutLength 0 rest
  := by
  rw [List.cons_append] at comment ⊢
  rw [layoutLength, space, if_neg Bool.false_ne_true, comment]
  simp only [Nat.add_sub_cancel]
  rw [layoutLength_inside]
  omega

theorem Trivia.layoutLength_written (t : Trivia) (rest : List Char) :
  layoutLength 0 (t.written ++ rest) = t.written.length + layoutLength 0 rest
  := by
  cases t with
  | blank c space =>
    rw [Trivia.written, List.singleton_append, layoutLength, if_pos space, List.length_singleton]
    omega
  | line body inside =>
    have stops : (body ++ '\n' :: rest).takeWhile (· != '\n') = body := by
      apply takeWhile_append_of_stop
      · intro c hc
        have ne : c ≠ '\n' := fun same => inside (same ▸ hc)
        simpa using ne
      · simp
    have comment : commentLength ('/' :: ('/' :: body) ++ '\n' :: rest)
        = some (('/' :: body).length + 1) := by
      simp [commentLength, stops]
    have split : Trivia.written (line body inside) ++ rest = '/' :: ('/' :: body) ++ '\n' :: rest := by
      simp [Trivia.written]
    have newline : layoutLength 0 ('\n' :: rest) = layoutLength 0 rest + 1 := by
      rw [layoutLength, if_pos (by decide)]
    rw [split, layoutLength_comment (by decide) comment, newline]
    simp [Trivia.written]
    omega
  | block body inside =>
    have comment : commentLength ('/' :: ('*' :: (body ++ ['*', '/'])) ++ rest)
        = some (('*' :: (body ++ ['*', '/'])).length + 1) := by
      have closed := blockEnd_append inside rest
      simp [commentLength, closed]
    rw [Trivia.written, layoutLength_comment (by decide) comment]
    simp

/-- Looking for a token passes over all that stands before it. -/
theorem Gap.layoutLength_written (gap : Gap) (rest : List Char) :
  layoutLength 0 (gap.written ++ rest) = gap.written.length + layoutLength 0 rest
  := by
  induction gap with
  | nil => simp [Gap.written]
  | cons t gap ih =>
    have split : Gap.written (t :: gap) = t.written ++ Gap.written gap := List.flatMap_cons
    rw [split, List.append_assoc, t.layoutLength_written, ih, List.length_append]
    omega

/-- Behind a gap there is no layout where a token stands. -/
theorem Gap.layoutLength_of_rest {gap : Gap} {cs rest : List Char} (split : rest = gap.written ++ cs)
    (layout : layoutLength 0 cs = 0) :
  layoutLength 0 rest = gap.written.length ∧ rest.drop gap.written.length = cs
  := by
  rw [split, gap.layoutLength_written, layout, Nat.add_zero, List.drop_left]
  exact ⟨rfl, rfl⟩

/-! ### Names -/

/-- A name. -/
structure Identifier where
  first : Char
  more : List Char
  isStart : isIdentifierStart first = true
  isPart : ∀ c ∈ more, isIdentifierPart c = true

/-- The characters of a name. -/
def Identifier.written (name : Identifier) : List Char :=
  name.first :: name.more

section Letters

variable {c : Char}

/-- No letter comes before the dollar sign. -/
theorem isIdentifier_of_lt (low : c.toNat < 0x24) :
  isIdentifierStart c = false ∧ isIdentifierPart c = false
  := by
  have table : ∀ n < 0x24, isIdentifierStart (Char.ofNat n) = false
      ∧ isIdentifierPart (Char.ofNat n) = false := by decide +kernel
  rw [← Char.ofNat_toNat c]
  exact table _ low

theorem lt_of_isSpace (h : isSpace c = true) :
  c.toNat < 0x24
  := by
  simp only [isSpace, Bool.or_eq_true, beq_iff_eq, Bool.and_eq_true, decide_eq_true_eq] at h
  obtain rfl | ⟨_, upper⟩ := h
  · decide
  · have : c.toNat ≤ '\r'.toNat := upper
    have : '\r'.toNat = 13 := rfl
    omega

theorem isDigit_of_isIdentifierStart (h : isIdentifierStart c = true) :
  c.isDigit = false
  := by
  apply Bool.eq_false_iff.mpr
  intro digit
  have table : ∀ n < 0x3A, 0x30 ≤ n → isIdentifierStart (Char.ofNat n) = false := by decide +kernel
  simp only [Char.isDigit, Bool.and_eq_true, decide_eq_true_eq] at digit
  have lower : '0'.toNat ≤ c.toNat := digit.1
  have upper : c.toNat ≤ '9'.toNat := digit.2
  have := table c.toNat (Nat.lt_succ_of_le upper) lower
  rw [Char.ofNat_toNat, h] at this
  contradiction

theorem isBlank_of_isSpace (h : isSpace c = true) :
  Text.isBlank c = true
  := by
  have table : ∀ n < 0x24, isSpace (Char.ofNat n) = true → Text.isBlank (Char.ofNat n) = true := by
    decide +kernel
  rw [← Char.ofNat_toNat c] at h ⊢
  exact table _ (lt_of_isSpace (by rwa [Char.ofNat_toNat] at h)) h

/-- The ranges of the blank characters lie between those of the letters. -/
theorem letters_apart :
  ∀ r ∈ Text.blankPoints.solid.toList ++ Text.blankPoints.alternating.toList,
    (r.2 ≤ 0x20 ∨ 0x80 ≤ r.1) ∧ (r.2 < 0xA2 ∨ 0xA2 < r.1)
      ∧ ∀ s ∈ (startPoints.solid.toList ++ startPoints.alternating.toList)
        ++ (partPoints.solid.toList ++ partPoints.alternating.toList), r.2 < s.1 ∨ s.2 < r.1
  := by
  decide +kernel

theorem isIdentifier_of_isBlank (h : Text.isBlank c = true) :
  isIdentifierStart c = false ∧ isIdentifierPart c = false
  := by
  obtain ⟨r, blank, lower, upper⟩ := Text.CodePoints.exists_range h
  obtain ⟨ascii, cent, apart⟩ := letters_apart r blank
  by_cases low : c.toNat < 0x80
  · apply isIdentifier_of_lt
    omega
  · have dollar : (c == '_') = false ∧ (c == '$') = false := by
      constructor <;> apply beq_false_of_ne <;> rintro rfl <;> exact low (by decide)
    have outside : startPoints.contains c = false ∧ partPoints.contains c = false := by
      constructor <;> apply Bool.eq_false_iff.mpr <;> intro inside
      · obtain ⟨s, listed, lower', upper'⟩ := Text.CodePoints.exists_range inside
        have := apart s (List.mem_append_left _ listed)
        omega
      · obtain ⟨s, listed, lower', upper'⟩ := Text.CodePoints.exists_range inside
        have := apart s (List.mem_append_right _ listed)
        omega
    have notCent : (c.toNat == 0xA2) = false := by
      apply beq_false_of_ne
      omega
    rw [isIdentifierStart, isIdentifierPart, dollar.1, dollar.2, notCent, if_neg low, if_neg low,
      outside.1, outside.2]
    exact ⟨rfl, rfl⟩

end Letters

/-- What stands behind a name: no letter of a name, and no hyphen as in the longest word. -/
def StopsName (cs : List Char) : Prop :=
  ∀ c ∈ cs.head?, isIdentifierPart c = false ∧ c ≠ '-'

theorem layoutLength_eq_zero {c : Char} {cs : List Char} (space : isSpace c = false) (ne : c ≠ '/') :
  layoutLength 0 (c :: cs) = 0
  := by
  have comment : commentLength (c :: cs) = none := by
    unfold commentLength
    split <;> simp_all
  rw [layoutLength, space, comment]
  rfl

/-- A name ends before a blank or a comment. -/
theorem Gap.stopsName_of_ne_nil {gap : Gap} (inhabited : gap ≠ []) (cs : List Char) :
  StopsName (gap.written ++ cs)
  := by
  obtain ⟨t, gap, rfl⟩ := List.exists_cons_of_ne_nil inhabited
  have slash : isIdentifierPart '/' = false ∧ '/' ≠ '-' := by decide
  cases t with
  | blank c space =>
    intro d hd
    obtain rfl : c = d := Option.some.inj hd
    refine ⟨(isIdentifier_of_lt (lt_of_isSpace space)).2, ?_⟩
    rintro rfl
    contradiction
  | line body inside => exact fun d hd => Option.some.inj hd ▸ slash
  | block body inside => exact fun d hd => Option.some.inj hd ▸ slash

theorem Gap.stopsName (gap : Gap) {cs : List Char} (h : StopsName cs) :
  StopsName (gap.written ++ cs)
  := by
  by_cases empty : gap = []
  · rw [empty]
    exact h
  · exact stopsName_of_ne_nil empty cs

namespace Identifier

variable (name : Identifier) {cs : List Char}

theorem layoutLength_written (cs : List Char) :
  layoutLength 0 (name.written ++ cs) = 0
  := by
  have start := name.isStart
  apply layoutLength_eq_zero
  · apply Bool.eq_false_iff.mpr
    intro space
    rw [(isIdentifier_of_lt (lt_of_isSpace space)).1] at start
    contradiction
  · intro slash
    rw [slash] at start
    contradiction

theorem wordLength_written (stops : StopsName cs) :
  wordLength (name.written ++ cs) = name.written.length
  := by
  have word : (name.more ++ cs).takeWhile isIdentifierPart = name.more :=
    takeWhile_append_of_stop name.isPart fun c first => (stops c first).1
  rw [written, List.cons_append, wordLength, if_pos name.isStart, word, List.length_cons]

end Identifier

end SourceAtlas.Java
