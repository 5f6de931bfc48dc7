import SourceAtlas.Proofs.Text.Removal
import SourceAtlas.References

/-!
# What the removal of comments leaves

Block comments are removed first and line comments from what is left. No line comment survives
(`not_infix_slashes`). A block comment can: when a slash stands right before a block comment and a
star right behind it, they meet once the block is gone, and what is kept is not looked at again.
Hence a second removal changes nothing exactly if no block comment has come about in this way
(`stripComments_eq_self_iff`), and none can in a text where no slash stands right before the opening
of a block comment (`not_hasBlock_stripComments`).
-/

namespace SourceAtlas.References

open Text (Piece Pattern)
open Text.Pattern (Removes removes_remove)

variable {cs rest : List Char}

/-! ### Block comments -/

/-- The text starts with a block comment: a slash and a star, with a star and a slash somewhere
behind them. -/
def StartsBlock (cs : List Char) : Prop :=
  ∃ behind, cs = '/' :: '*' :: behind ∧ ['*', '/'] <:+: behind

/-- There is a complete block comment in the text. -/
def HasBlock (cs : List Char) : Prop :=
  ∃ s, s <:+ cs ∧ StartsBlock s

theorem hasBlock_cons {c : Char} :
  HasBlock (c :: cs) ↔ StartsBlock (c :: cs) ∨ HasBlock cs
  := by
  simp only [HasBlock, List.suffix_cons_iff]
  constructor
  · rintro ⟨s, rfl | suffix, starts⟩
    · apply Or.inl starts
    · exact .inr ⟨s, suffix, starts⟩
  · rintro (starts | ⟨s, suffix, starts⟩)
    · exact ⟨c :: cs, .inl rfl, starts⟩
    · exact ⟨s, .inr suffix, starts⟩

theorem not_hasBlock_nil :
  ¬ HasBlock []
  := by
  rintro ⟨s, suffix, behind, rfl, -⟩
  cases List.suffix_nil.mp suffix

theorem HasBlock.of_suffix {s : List Char} (h : HasBlock s) (suffix : s <:+ cs) :
  HasBlock cs
  := by
  obtain ⟨s', suffix', starts⟩ := h
  exact ⟨s', suffix'.trans suffix, starts⟩

/-- A star and a slash are in the text of every block comment. -/
theorem HasBlock.closes (h : HasBlock cs) :
  ['*', '/'] <:+: cs
  := by
  obtain ⟨_, suffix, behind, rfl, closes⟩ := h
  apply (closes.trans (List.suffix_append ['/', '*'] behind).isInfix).trans suffix.isInfix

theorem occurrence?_blockComment_eq_none_iff :
  blockComment.occurrence? cs = none ↔ ¬ StartsBlock cs
  := by
  rw [blockComment, Pattern.occurrence?_text_eq_none_iff, StartsBlock]
  simp only [Pattern.occurrence?_shortest_eq_none_iff, Pattern.occurrence?_text_eq_none_iff,
    Pattern.occurrence?_nil_ne_none, List.infix_iff_prefix_suffix]
  constructor
  · rintro none ⟨behind, rfl, s, ⟨after, rfl⟩, suffix⟩
    apply none behind rfl _ suffix after rfl
  · rintro none behind rfl _ suffix after rfl
    exact none ⟨behind, rfl, _, List.prefix_append _ after, suffix⟩

theorem startsBlock_of_occurrence? {o : Text.Occurrence}
    (fits : blockComment.occurrence? cs = some o) :
  StartsBlock cs
  := by
  by_contra unopened
  rw [occurrence?_blockComment_eq_none_iff.mpr unopened] at fits
  cases fits

theorem removes_blockComment_eq_self_iff (h : Removes blockComment cs rest) :
  rest = cs ↔ ¬ HasBlock cs
  := by
  simp only [h.eq_self_iff, occurrence?_blockComment_eq_none_iff, HasBlock, not_exists, not_and]
  constructor
  · intro nowhere s suffix starts
    apply nowhere s suffix _ starts
    rintro rfl
    obtain ⟨_, ⟨⟩, -⟩ := starts
  · intro nowhere s suffix _
    apply nowhere s suffix

/-- Without a slash right before the opening of a block comment, no block comment comes about. A
slash and a star that were next to each other before opened none, so that nothing behind them was
cut out. -/
theorem not_hasBlock_of_removes (h : Removes blockComment cs rest)
    (apart : ¬ ['/', '/', '*'] <:+: cs) :
  ¬ HasBlock rest
  := by
  induction h with
  | done => apply not_hasBlock_nil
  | @cut c cs rest o _ _ ih =>
    apply ih
    intro joined
    exact apart (joined.trans ((List.drop_suffix _ cs).trans (List.suffix_cons c cs)).isInfix)
  | @keep c cs rest unfit kept ih =>
    have unopened := occurrence?_blockComment_eq_none_iff.mp unfit
    rw [hasBlock_cons]
    rintro (⟨behind, ⟨⟩, closes⟩ | later)
    · cases kept with
      | @keep _ cs _ _ kept =>
        have unclosed : ¬ ['*', '/'] <:+: cs := fun closes => unopened ⟨cs, rfl, closes⟩
        obtain rfl := (removes_blockComment_eq_self_iff kept).mpr (mt HasBlock.closes unclosed)
        exact unclosed closes
      | cut fits _ =>
        obtain ⟨inner, opening, -⟩ := startsBlock_of_occurrence? fits
        rw [opening] at apart
        exact apart (List.prefix_append ['/', '/', '*'] inner).isInfix
    · apply ih _ later
      intro joined
      exact apart (joined.trans (List.suffix_cons c cs).isInfix)

/-! ### Line comments -/

theorem occurrence?_lineComment_eq_none_iff :
  lineComment.occurrence? cs = none ↔ ¬ ['/', '/'] <+: cs
  := by
  rw [lineComment, Pattern.occurrence?_text_eq_none_iff]
  constructor
  · rintro none ⟨behind, rfl⟩
    exact Pattern.occurrence?_longest_ne_none Pattern.occurrence?_nil_ne_none (none behind rfl)
  · rintro none behind rfl
    exact absurd (List.prefix_append _ behind) none

theorem removes_lineComment_eq_self_iff (h : Removes lineComment cs rest) :
  rest = cs ↔ ¬ ['/', '/'] <:+: cs
  := by
  simp only [h.eq_self_iff, occurrence?_lineComment_eq_none_iff, List.infix_iff_prefix_suffix,
    not_exists, not_and]
  constructor
  · intro nowhere s starts suffix
    apply nowhere s suffix _ starts
    rintro rfl
    simp at starts
  · intro nowhere s suffix _ starts
    exact nowhere s starts suffix

/-- A character that is kept in front of the rest stood there before, or a line comment did. -/
theorem head_of_removes {d : Char} (h : Removes lineComment cs (d :: rest)) :
  (∃ cs', cs = d :: cs' ∧ Removes lineComment cs' rest) ∨ ['/', '/'] <+: cs
  := by
  cases h with
  | keep _ kept => exact .inl ⟨_, rfl, kept⟩
  | cut fits _ =>
    right
    by_contra single
    rw [occurrence?_lineComment_eq_none_iff.mpr single] at fits
    cases fits

/-- No two slashes meet. -/
theorem not_infix_of_removes (h : Removes lineComment cs rest) :
  ¬ ['/', '/'] <:+: rest
  := by
  induction h with
  | done => simp
  | cut _ _ ih => apply ih
  | keep unfit kept ih =>
    have single := occurrence?_lineComment_eq_none_iff.mp unfit
    rw [List.infix_cons_iff]
    rintro (⟨behind, ⟨⟩⟩ | later)
    · apply single
      obtain ⟨cs', rfl, -⟩ | ⟨inner, rfl⟩ := head_of_removes kept
      · apply List.prefix_append ['/', '/']
      · apply List.prefix_append ['/', '/']
    · exact ih later

theorem closes_of_removes (h : Removes lineComment cs rest) (closes : ['*', '/'] <:+: rest) :
  ['*', '/'] <:+: cs
  := by
  induction h with
  | done => apply closes
  | @cut c cs _ _ _ _ ih =>
    apply (ih closes).trans ((List.drop_suffix _ cs).trans (List.suffix_cons c cs)).isInfix
  | @keep c cs rest _ kept ih =>
    obtain ⟨behind, ⟨⟩⟩ | later := List.infix_cons_iff.mp closes
    · apply List.IsPrefix.isInfix
      obtain ⟨cs', rfl, -⟩ | ⟨inner, rfl⟩ := head_of_removes kept
      · apply List.prefix_append ['*', '/']
      · apply List.prefix_append ['*', '/']
    · apply (ih later).trans (List.suffix_cons c cs).isInfix

/-- The removal of line comments brings no slash and star together. -/
theorem HasBlock.of_removes (h : Removes lineComment cs rest) (block : HasBlock rest) :
  HasBlock cs
  := by
  induction h with
  | done => apply block
  | @cut c cs _ _ _ _ ih =>
    apply (ih block).of_suffix ((List.drop_suffix _ cs).trans (List.suffix_cons c cs))
  | @keep c cs rest unfit kept ih =>
    have single := occurrence?_lineComment_eq_none_iff.mp unfit
    obtain ⟨behind, ⟨⟩, closes⟩ | later := hasBlock_cons.mp block
    · obtain ⟨cs', rfl, kept'⟩ | ⟨inner, rfl⟩ := head_of_removes kept
      · exact hasBlock_cons.mpr (.inl ⟨cs', rfl, closes_of_removes kept' closes⟩)
      · exact absurd (List.prefix_append ['/', '/'] ('/' :: inner)) single
    · apply (ih later).of_suffix (List.suffix_cons c cs)

/-! ### All comments -/

theorem not_infix_slashes (cs : List Char) :
  ¬ ['/', '/'] <:+: stripComments cs
  := not_infix_of_removes (removes_remove _ _)

/-- Each of the two removals can only shorten a text, so a text stays the same under both of them or
under neither. -/
theorem stripComments_eq_self_iff :
  stripComments cs = cs ↔ ¬ HasBlock cs ∧ ¬ ['/', '/'] <:+: cs
  := by
  have blocks := removes_remove blockComment cs
  have lines := removes_remove lineComment (blockComment.remove cs)
  constructor
  · intro same
    have whole : blockComment.remove cs = cs := by
      apply blocks.sublist.eq_of_length_le
      nth_rewrite 1 [← same]
      apply lines.sublist.length_le
    have single := (removes_lineComment_eq_self_iff lines).mp (same.trans whole.symm)
    rw [whole] at single
    exact ⟨(removes_blockComment_eq_self_iff blocks).mp whole, single⟩
  · rintro ⟨unblocked, single⟩
    have whole := (removes_blockComment_eq_self_iff blocks).mpr unblocked
    rw [stripComments, whole]
    apply (removes_lineComment_eq_self_iff (removes_remove lineComment cs)).mpr single

theorem not_hasBlock_stripComments (apart : ¬ ['/', '/', '*'] <:+: cs) :
  ¬ HasBlock (stripComments cs)
  := by
  intro block
  apply not_hasBlock_of_removes (removes_remove blockComment cs) apart
  apply block.of_removes (removes_remove _ _)

/-- What is left of a text never holds a line comment. A second removal leaves it as it is exactly
if it holds no complete block comment either, and that is so for every text in which no slash
stands right before the opening of a block comment. -/
theorem stripComments_stable_iff (cs : List Char) :
  ¬ ['/', '/'] <:+: stripComments cs
    ∧ (stripComments (stripComments cs) = stripComments cs ↔ ¬ HasBlock (stripComments cs))
    ∧ (¬ ['/', '/', '*'] <:+: cs → stripComments (stripComments cs) = stripComments cs)
  := by
  have single := not_infix_slashes cs
  have stable : stripComments (stripComments cs) = stripComments cs
      ↔ ¬ HasBlock (stripComments cs) := by
    rw [stripComments_eq_self_iff]
    apply and_iff_left single
  refine ⟨single, stable, ?_⟩
  intro apart
  apply stable.mpr (not_hasBlock_stripComments apart)

/-- The slash and the star on both sides of an empty block comment meet, and the reference in the
block comment that comes about is taken for one of the program. -/
theorem stripComments_not_stable :
  let text := "//**/* new Hidden() */"
  stripComments text.toList = "/* new Hidden() */".toList
    ∧ candidates text = ["Hidden"]
    ∧ stripComments (stripComments text.toList) = []
    ∧ stripComments (stripComments text.toList) ≠ stripComments text.toList
  := by
  decide +kernel

end SourceAtlas.References
