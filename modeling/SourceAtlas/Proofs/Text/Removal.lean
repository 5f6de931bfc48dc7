import Mathlib.Data.List.Infix
import SourceAtlas.Text.Pattern

/-!
# Texts without the occurrences of a pattern

The removal of a pattern walks through a text once (`removes_remove`). Where the pattern fits, what
it covers is cut out and the walk goes on behind it; any other character is kept. What is kept is
not looked at again, so the characters on both sides of a cut may make up a new occurrence. A text
stays as it is exactly if the pattern fits nowhere (`Removes.eq_self_iff`).
-/

namespace SourceAtlas.Text

namespace Pattern

variable {p : Pattern} {cs rest : List Char}

/-! ### Where a pattern does not fit -/

@[simp]
theorem occurrence?_nil_ne_none :
  occurrence? [] cs ≠ none
  := Option.some_ne_none _

theorem occurrence?_text_eq_none_iff {chars : List Char} :
  occurrence? (.text chars :: p) cs = none ↔ ∀ rest, cs = chars ++ rest → p.occurrence? rest = none
  := by
  rw [occurrence?, Piece.before]
  split
  · rename_i fits
    obtain ⟨rest, rfl⟩ := List.isPrefixOf_iff_prefix.mp fits
    simp
  · rename_i unfit
    rw [List.isPrefixOf_iff_prefix] at unfit
    simp only [true_iff]
    rintro rest rfl
    exact absurd (List.prefix_append chars rest) unfit

theorem occurrence?_shortest_eq_none_iff :
  occurrence? (.shortest :: p) cs = none ↔ ∀ s, s <:+ cs → p.occurrence? s = none
  := by
  rw [occurrence?, Piece.before]
  induction cs with
  | nil => simp [Piece.shortestRun]
  | cons c cs ih => simp [Piece.shortestRun, ih, List.suffix_cons_iff]

/-- A run that may be empty fits wherever the rest of the pattern does. -/
theorem occurrence?_longest_ne_none {kept : Bool} {accepts : Char → Bool}
    (fits : p.occurrence? cs ≠ none) :
  occurrence? (.longest kept 0 accepts :: p) cs ≠ none
  := by
  rw [occurrence?, Piece.before]
  cases cs with
  | nil => simpa [Piece.longestRun] using fits
  | cons c cs => simp [Piece.longestRun, fits]

/-! ### Removal -/

/-- The second text is what a walk through the first one keeps when it cuts out the occurrences of
the pattern. -/
inductive Removes (p : Pattern) : List Char → List Char → Prop where
  | done : Removes p [] []
  | keep {c : Char} {cs rest : List Char} (unfit : p.occurrence? (c :: cs) = none) :
    Removes p cs rest → Removes p (c :: cs) (c :: rest)
  | cut {c : Char} {cs rest : List Char} {o : Occurrence}
      (fits : p.occurrence? (c :: cs) = some o) :
    Removes p (cs.drop (o.length - 1)) rest → Removes p (c :: cs) rest

theorem removes_removeFrom (p : Pattern) (skip : Nat) (cs : List Char) :
  Removes p (cs.drop skip) (p.removeFrom skip cs)
  := by
  fun_induction removeFrom p skip cs with
  | case1 skip =>
    rw [List.drop_nil]
    apply Removes.done
  | case2 skip c cs ih => apply ih
  | case3 c cs o fits ih => apply Removes.cut fits ih
  | case4 c cs unfit ih => apply Removes.keep unfit ih

theorem removes_remove (p : Pattern) (cs : List Char) :
  Removes p cs (p.remove cs)
  := removes_removeFrom p 0 cs

theorem Removes.sublist (h : Removes p cs rest) :
  rest.Sublist cs
  := by
  induction h with
  | done => apply List.Sublist.refl
  | keep _ _ ih => apply ih.cons_cons
  | cut _ _ ih => apply (ih.trans (List.drop_sublist _ _)).cons

theorem Removes.eq_self_iff (h : Removes p cs rest) :
  rest = cs ↔ ∀ s, s <:+ cs → s ≠ [] → p.occurrence? s = none
  := by
  induction h with
  | done => simp
  | keep unfit _ ih =>
    simp only [List.cons.injEq, true_and, ih, List.suffix_cons_iff]
    constructor
    · rintro nowhere s (rfl | suffix) proper
      · apply unfit
      · apply nowhere s suffix proper
    · intro nowhere s suffix proper
      apply nowhere s (.inr suffix) proper
  | @cut c cs rest o fits kept _ =>
    constructor
    · rintro rfl
      have short := (kept.sublist.trans (List.drop_sublist _ _)).length_le
      rw [List.length_cons] at short
      omega
    · intro nowhere
      simp [nowhere (c :: cs) List.suffix_rfl (List.cons_ne_nil c cs)] at fits

end Pattern

end SourceAtlas.Text
