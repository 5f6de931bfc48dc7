import Mathlib.Data.List.Perm.Basic
import SourceAtlas.Proofs.Comments
import SourceAtlas.Proofs.Lists
import SourceAtlas.Proofs.Text.Covering
import SourceAtlas.Proofs.Text.Split

/-!
# Comments are removed in two stages

The removal of comments, which is a search for two patterns, does what one would do by hand. First
the text is cut into stretches: up to the next `/*`, then through the first `*/` behind it, and so
on from there. What stands between the block comments is kept (`remove_blockComment`). Then every
line of that is cut at its first `//` (`remove_lineComment`). The lines of the result are the cut
lines of what is left of the blocks, so no line is lost or joined in the second stage.
-/

namespace SourceAtlas

namespace Text

variable {mark cs before behind : List Char} {c : Char}

/-! ### The first occurrence of a mark -/

/-- The text before the first occurrence of `mark`, which is not empty, and the text behind it. -/
def cut? (mark : List Char) : List Char → Option (List Char × List Char)
  | [] => none
  | c :: cs =>
    if mark.isPrefixOf (c :: cs) then some ([], (c :: cs).drop mark.length)
    else (cut? mark cs).map fun (before, behind) => (c :: before, behind)

theorem cut?_append (proper : mark ≠ []) (behind : List Char) :
  cut? mark (mark ++ behind) = some ([], behind)
  := by
  obtain ⟨c, cs, rfl⟩ := List.exists_cons_of_ne_nil proper
  simp [cut?]

theorem pair_prefix_iff {a b : Char} :
  [a, b] <+: cs ↔ ∃ behind, cs = a :: b :: behind
  := by
  constructor
  · rintro ⟨behind, rfl⟩
    exact ⟨behind, rfl⟩
  · rintro ⟨behind, rfl⟩
    apply List.prefix_append [a, b]

theorem cut?_pair (a b : Char) (behind : List Char) :
  cut? [a, b] (a :: b :: behind) = some ([], behind)
  := cut?_append (List.cons_ne_nil a [b]) behind

theorem cut?_cons (unmarked : ¬ mark <+: c :: cs) :
  cut? mark (c :: cs) = (cut? mark cs).map fun (before, behind) => (c :: before, behind)
  := by
  rw [cut?, if_neg (mt List.isPrefixOf_iff_prefix.mp unmarked)]

theorem eq_append_of_cut? (h : cut? mark cs = some (before, behind)) :
  cs = before ++ mark ++ behind
  := by
  induction cs generalizing before with
  | nil => cases h
  | cons c cs ih =>
    rw [cut?] at h
    split at h
    · rename_i marked
      obtain ⟨rest, split⟩ := List.isPrefixOf_iff_prefix.mp marked
      rw [← split, List.drop_left] at h
      obtain ⟨rfl, rfl⟩ := Prod.mk.inj (Option.some.inj h)
      apply split.symm
    · obtain ⟨⟨before, behind⟩, found, ⟨⟩⟩ := Option.map_eq_some_iff.mp h
      rw [ih found]
      rfl

theorem cut?_eq_none_iff (proper : mark ≠ []) :
  cut? mark cs = none ↔ ¬ mark <:+: cs
  := by
  induction cs with
  | nil => simp [cut?, proper]
  | cons c cs ih =>
    by_cases marked : mark <+: c :: cs
    · obtain ⟨behind, split⟩ := marked
      rw [List.infix_cons_iff, ← split, cut?_append proper]
      simp
    · rw [List.infix_cons_iff, cut?_cons marked, Option.map_eq_none_iff, ih]
      simp [marked]

/-- Everything up to the first occurrence of a mark is the shortest run before it. -/
theorem Pattern.occurrence?_shortest_text (proper : mark ≠ []) (cs : List Char) :
  Pattern.occurrence? [.shortest, .text mark] cs
    = (cut? mark cs).map fun (before, _) => ⟨[], before.length + mark.length⟩
  := by
  have next (s : List Char) : Pattern.occurrence? [.text mark] s
      = if mark.isPrefixOf s then some ⟨[], mark.length⟩ else none := rfl
  rw [occurrence?, Piece.before]
  induction cs with
  | nil => simp [Piece.shortestRun, next, cut?, proper]
  | cons c cs ih =>
    rw [Piece.shortestRun, ih, next, cut?]
    split
    · simp
    · cases cut? mark cs with
      | none => rfl
      | some parts =>
        simp only [Option.map_some, Occurrence.after, Option.orElse_eq_orElse,
          Option.orElse_eq_or, Option.none_or, List.length_cons, Option.some.injEq,
          Occurrence.mk.injEq, true_and]
        omega

end Text

namespace References

open Text (cut? cut?_pair cut?_cons cut?_eq_none_iff eq_append_of_cut? pair_prefix_iff Pattern)
open Text.Pattern (Removes removes_remove)

variable {cs rest : List Char}

/-! ### The first stage -/

/-- Kept text and the block comment right behind it. -/
structure Stretch where
  kept : List Char
  block : List Char

/-- The text cut at its block comments, each from the next `/*` through the first `*/` that begins
at least two characters after it. From a `/*` without such a `*/` on, and from the last block
comment on, the text is kept as it is. -/
def stretches (cs : List Char) : List Stretch :=
  match _opening : cut? ['/', '*'] cs with
  | none => [⟨cs, []⟩]
  | some (before, inside) =>
    match _closing : cut? ['*', '/'] inside with
    | none => [⟨cs, []⟩]
    | some (comment, behind) => ⟨before, ['/', '*'] ++ comment ++ ['*', '/']⟩ :: stretches behind
termination_by cs.length
decreasing_by
  rw [eq_append_of_cut? _opening, eq_append_of_cut? _closing]
  simp only [List.length_append, List.length_cons]
  omega

/-- The text without its block comments. -/
def withoutBlocks (cs : List Char) : List Char :=
  (stretches cs).flatMap Stretch.kept

theorem stretches_of_unopened (h : cut? ['/', '*'] cs = none) :
  stretches cs = [⟨cs, []⟩]
  := by
  rw [stretches]
  split
  · rfl
  · simp_all

theorem stretches_of_unclosed {before inside : List Char}
    (opening : cut? ['/', '*'] cs = some (before, inside)) (h : cut? ['*', '/'] inside = none) :
  stretches cs = [⟨cs, []⟩]
  := by
  rw [stretches]
  split
  · rfl
  · split
    · rfl
    · simp_all

theorem stretches_of_closed {before inside comment behind : List Char}
    (opening : cut? ['/', '*'] cs = some (before, inside))
    (closing : cut? ['*', '/'] inside = some (comment, behind)) :
  stretches cs = ⟨before, ['/', '*'] ++ comment ++ ['*', '/']⟩ :: stretches behind
  := by
  rw [stretches]
  split
  · simp_all
  · split
    · simp_all
    · simp_all

/-- Nothing but the block comments stands between the kept parts. -/
theorem flatMap_stretches (cs : List Char) :
  (stretches cs).flatMap (fun s => s.kept ++ s.block) = cs
  := by
  fun_induction stretches cs with
  | case1 cs opening => simp
  | case2 cs before inside opening closing => simp
  | case3 cs before inside opening comment behind closing ih =>
    rw [List.flatMap_cons, ih, eq_append_of_cut? opening, eq_append_of_cut? closing]
    simp

/-- A character that opens no block comment is kept. -/
theorem withoutBlocks_cons {c : Char} (unmarked : ¬ ['/', '*'] <+: c :: cs) :
  withoutBlocks (c :: cs) = c :: withoutBlocks cs
  := by
  rw [withoutBlocks, withoutBlocks]
  cases opening : cut? ['/', '*'] cs with
  | none =>
    have here : cut? ['/', '*'] (c :: cs) = none := by
      rw [cut?_cons unmarked, opening]
      rfl
    rw [stretches_of_unopened here, stretches_of_unopened opening]
    simp
  | some parts =>
    obtain ⟨before, inside⟩ := parts
    have here : cut? ['/', '*'] (c :: cs) = some (c :: before, inside) := by
      rw [cut?_cons unmarked, opening]
      rfl
    cases closing : cut? ['*', '/'] inside with
    | none =>
      rw [stretches_of_unclosed here closing, stretches_of_unclosed opening closing]
      simp
    | some parts =>
      rw [stretches_of_closed here closing, stretches_of_closed opening closing]
      simp

/-- A block comment that is opened and closed covers everything through its end. -/
theorem occurrence?_blockComment (inside : List Char) :
  blockComment.occurrence? ('/' :: '*' :: inside)
    = (cut? ['*', '/'] inside).map fun (comment, _) => ⟨[], comment.length + 4⟩
  := by
  have inner := Pattern.occurrence?_shortest_text (List.cons_ne_nil '*' ['/']) inside
  have whole : blockComment.occurrence? ('/' :: '*' :: inside)
      = (Pattern.occurrence? [.shortest, .text ['*', '/']] inside).map (Text.Occurrence.after 2) :=
    rfl
  rw [whole, inner, Option.map_map]
  congr 1
  funext ⟨comment, behind⟩
  simp only [Function.comp_apply, Text.Occurrence.after, List.length_cons, List.length_nil,
    Text.Occurrence.mk.injEq, true_and]
  omega

theorem removes_blockComment (h : Removes blockComment cs rest) :
  rest = withoutBlocks cs
  := by
  induction h with
  | done =>
    rw [withoutBlocks, stretches_of_unopened rfl]
    rfl
  | @keep c cs rest unfit kept ih =>
    by_cases marked : ['/', '*'] <+: c :: cs
    · obtain ⟨inside, ⟨⟩⟩ := pair_prefix_iff.mp marked
      have closing : cut? ['*', '/'] inside = none := by
        rw [occurrence?_blockComment, Option.map_eq_none_iff] at unfit
        apply unfit
      have unclosed := (cut?_eq_none_iff (List.cons_ne_nil _ _)).mp closing
      have whole : rest = '*' :: inside := by
        apply (removes_blockComment_eq_self_iff kept).mpr
        rw [hasBlock_cons]
        rintro (⟨_, ⟨⟩, _⟩ | later)
        exact unclosed later.closes
      rw [withoutBlocks, stretches_of_unclosed (cut?_pair '/' '*' inside) closing, whole]
      simp
    · rw [withoutBlocks_cons marked, ih]
  | @cut c cs rest o fits kept ih =>
    obtain ⟨inside, ⟨⟩, -⟩ := startsBlock_of_occurrence? fits
    rw [occurrence?_blockComment] at fits
    obtain ⟨⟨comment, behind⟩, closing, rfl⟩ := Option.map_eq_some_iff.mp fits
    have behindBlock : ('*' :: inside).drop (comment.length + 3) = behind := by
      rw [eq_append_of_cut? closing, ← List.cons_append]
      apply List.drop_left'
      simp
    have whole : withoutBlocks ('/' :: '*' :: inside) = withoutBlocks behind := by
      rw [withoutBlocks, stretches_of_closed (cut?_pair '/' '*' inside) closing]
      rfl
    rw [whole, ← behindBlock]
    apply ih

theorem remove_blockComment (cs : List Char) :
  blockComment.remove cs = withoutBlocks cs
  := removes_blockComment (removes_remove blockComment cs)

/-! ### The second stage -/

/-- The line up to its first `//`. -/
def beforeSlashes (line : List Char) : List Char :=
  match cut? ['/', '/'] line with
  | none => line
  | some (before, _) => before

/-- Every line cut at its first `//`. -/
def withoutLineComments (cs : List Char) : List Char :=
  ['\n'].intercalate ((cs.splitOn '\n').map beforeSlashes)

theorem beforeSlashes_append (behind : List Char) :
  beforeSlashes ('/' :: '/' :: behind) = []
  := by
  rw [beforeSlashes, cut?_pair]

theorem beforeSlashes_cons {c : Char} {line : List Char} (unmarked : ¬ ['/', '/'] <+: c :: line) :
  beforeSlashes (c :: line) = c :: beforeSlashes line
  := by
  rw [beforeSlashes, beforeSlashes, cut?_cons unmarked]
  cases cut? ['/', '/'] line with
  | none => rfl
  | some parts => rfl

theorem prefix_beforeSlashes (line : List Char) :
  beforeSlashes line <+: line
  := by
  rw [beforeSlashes]
  split
  · apply List.prefix_rfl
  · rename_i marked
    rw [eq_append_of_cut? marked, List.append_assoc]
    apply List.prefix_append

/-- A line comment covers everything up to the end of the line. -/
theorem occurrence?_lineComment (behind : List Char) :
  lineComment.occurrence? ('/' :: '/' :: behind)
    = some ⟨[], (behind.takeWhile (· != '\n')).length + 2⟩
  := by
  have whole : lineComment.occurrence? ('/' :: '/' :: behind)
      = (Pattern.occurrence? [.longest false 0 (· != '\n')] behind).map (Text.Occurrence.after 2) :=
    rfl
  rw [whole, Pattern.occurrence?_longest]
  simp [Text.Occurrence.after, Nat.add_comm]

theorem slashes_of_occurrence? {o : Text.Occurrence} (fits : lineComment.occurrence? cs = some o) :
  ∃ behind, cs = '/' :: '/' :: behind
  := by
  apply pair_prefix_iff.mp
  by_contra unmarked
  rw [occurrence?_lineComment_eq_none_iff.mpr unmarked] at fits
  cases fits

/-- The removal of line comments cuts a line and goes on behind it. -/
theorem removes_line {line : List Char} (unbroken : '\n' ∉ line) (stop : ∀ c ∈ cs.head?, c = '\n')
    (h : Removes lineComment (line ++ cs) rest) :
  ∃ rest', rest = beforeSlashes line ++ rest' ∧ Removes lineComment cs rest'
  := by
  induction line generalizing rest with
  | nil => exact ⟨rest, rfl, h⟩
  | cons c line ih =>
    rw [List.cons_append] at h
    cases h with
    | keep unfit kept =>
      obtain ⟨rest', rfl, h⟩ := ih (mt (List.mem_cons_of_mem c) unbroken) kept
      have unmarked : ¬ ['/', '/'] <+: c :: line := by
        intro marked
        apply occurrence?_lineComment_eq_none_iff.mp unfit
        apply marked.trans (List.prefix_append (c :: line) cs)
      rw [beforeSlashes_cons unmarked]
      exact ⟨rest', rfl, h⟩
    | cut fits kept =>
      obtain ⟨behind, whole⟩ := slashes_of_occurrence? fits
      obtain ⟨rfl, second⟩ := List.cons.inj whole
      cases line with
      | nil =>
        obtain rfl : cs = '/' :: behind := second
        exact absurd (stop '/' rfl) (by decide)
      | cons d line =>
        obtain ⟨rfl, -⟩ := List.cons.inj second
        have covered : (line ++ cs).takeWhile (· != '\n') = line := by
          apply takeWhile_append_of_stop
          · intro c listed
            rw [bne_iff_ne]
            rintro rfl
            exact unbroken (List.mem_cons_of_mem _ (List.mem_cons_of_mem _ listed))
          · intro c first
            rw [stop c first, bne_self_eq_false]
        rw [List.cons_append, occurrence?_lineComment, covered] at fits
        obtain rfl := Option.some.inj fits
        rw [beforeSlashes_append]
        refine ⟨rest, rfl, ?_⟩
        have behindLine : (('/' :: line) ++ cs).drop (line.length + 1) = cs := List.drop_left' rfl
        rw [← behindLine]
        apply kept

theorem newline_not_mem_of_mem_splitOn {line : List Char} (h : line ∈ cs.splitOn '\n') :
  '\n' ∉ line
  := by
  rw [← Text.splitOn_eq] at h
  apply Text.not_mem_of_mem_splitOn h

theorem removes_newline (h : Removes lineComment ('\n' :: cs) rest) :
  ∃ rest', rest = '\n' :: rest' ∧ Removes lineComment cs rest'
  := by
  cases h with
  | keep _ kept => exact ⟨_, rfl, kept⟩
  | cut fits _ =>
    obtain ⟨behind, ⟨⟩⟩ := slashes_of_occurrence? fits

theorem removes_lineComment {lines : List (List Char)} (unbroken : ∀ line ∈ lines, '\n' ∉ line)
    (h : Removes lineComment (['\n'].intercalate lines) rest) :
  rest = ['\n'].intercalate (lines.map beforeSlashes)
  := by
  induction lines generalizing rest with
  | nil =>
    cases h
    rfl
  | cons line lines ih =>
    obtain ⟨here, later⟩ := List.forall_mem_cons.mp unbroken
    cases lines with
    | nil =>
      rw [List.intercalate_singleton, ← List.append_nil line] at h
      obtain ⟨rest', rfl, others⟩ := removes_line here (by simp) h
      obtain rfl : rest' = [] := List.sublist_nil.mp others.sublist
      simp
    | cons next lines =>
      rw [List.intercalate_cons_cons, List.append_assoc] at h
      obtain ⟨_, rfl, kept⟩ := removes_line here (by simp) h
      obtain ⟨rest', rfl, others⟩ := removes_newline kept
      rw [ih later others]
      simp [List.intercalate_cons_cons]

theorem remove_lineComment (cs : List Char) :
  lineComment.remove cs = withoutLineComments cs
  := by
  apply removes_lineComment
  · intro line listed
    apply newline_not_mem_of_mem_splitOn listed
  · rw [List.intercalate_splitOn]
    apply removes_remove

/-- The second stage keeps the lines apart. -/
theorem splitOn_withoutLineComments (cs : List Char) :
  (withoutLineComments cs).splitOn '\n' = (cs.splitOn '\n').map beforeSlashes
  := by
  apply List.splitOn_intercalate
  · rintro _ listed broken
    obtain ⟨line, whole, rfl⟩ := List.mem_map.mp listed
    apply newline_not_mem_of_mem_splitOn whole
    apply (prefix_beforeSlashes line).subset broken
  · simp

/-! ### Both stages -/

theorem stripComments_eq (cs : List Char) :
  stripComments cs = withoutLineComments (withoutBlocks cs)
  := by
  rw [stripComments, remove_blockComment, remove_lineComment]

theorem withoutBlocks_of_not_infix (unopened : ¬ ['/', '*'] <:+: cs) :
  withoutBlocks cs = cs
  := by
  rw [withoutBlocks, stretches_of_unopened]
  · simp
  · apply (cut?_eq_none_iff (List.cons_ne_nil _ _)).mpr unopened

/-- The line ends that are left and those of the block comments are all line ends of the text. -/
theorem count_newline_stripComments (cs : List Char) :
  (stripComments cs).count '\n' + ((stretches cs).flatMap Stretch.block).count '\n'
    = cs.count '\n'
  := by
  have lines : (stripComments cs).count '\n' = (withoutBlocks cs).count '\n' := by
    have same := congrArg List.length (splitOn_withoutLineComments (withoutBlocks cs))
    rw [← stripComments_eq, List.length_map, length_splitOn, length_splitOn] at same
    apply Nat.succ.inj same
  rw [lines, withoutBlocks, ← List.count_append]
  nth_rewrite 3 [← flatMap_stretches cs]
  apply List.Perm.count_eq
  apply List.flatMap_append_perm

/-- Comments are removed in two stages. First everything from the next `/*` through the first `*/`
that begins at least two characters after it is deleted, again and again from left to right, and
then every line is cut at its first `//`. So no `//` is left, and the line ends that are left are
those outside of the deleted blocks: each line of the result is one line of the kept stretches, cut
at its first `//`. In a text without `/*` the characters behind a `//` have no influence on the
references: two such texts whose lines agree up to their first `//` have the same references. -/
theorem stripComments_in_two_stages (text : String) :
  let cs := text.toList
  stripComments cs = withoutLineComments (withoutBlocks cs)
    ∧ ¬ ['/', '/'] <:+: stripComments cs
    ∧ (stretches cs).flatMap (fun s => s.kept ++ s.block) = cs
    ∧ (stripComments cs).splitOn '\n' = ((withoutBlocks cs).splitOn '\n').map beforeSlashes
    ∧ (stripComments cs).count '\n' + ((stretches cs).flatMap Stretch.block).count '\n'
        = cs.count '\n'
    ∧ ∀ text' : String, ¬ ['/', '*'] <:+: cs → ¬ ['/', '*'] <:+: text'.toList →
        (cs.splitOn '\n').map beforeSlashes = (text'.toList.splitOn '\n').map beforeSlashes →
        ∀ f : ReferenceFilter, f.references text = f.references text'
  := by
  intro cs
  and_intros
  · apply stripComments_eq
  · apply not_infix_slashes
  · apply flatMap_stretches
  · rw [stripComments_eq]
    apply splitOn_withoutLineComments
  · apply count_newline_stripComments
  · intro text' unopened unopened' same f
    have stripped : stripComments cs = stripComments text'.toList := by
      rw [stripComments_eq, stripComments_eq, withoutBlocks_of_not_infix unopened,
        withoutBlocks_of_not_infix unopened', withoutLineComments, withoutLineComments, same]
    rw [ReferenceFilter.references, ReferenceFilter.references, candidates, candidates, stripped]

/-- The star of an opening closes nothing, and a block that is not closed stays. -/
example : stripComments "/*/ a */ b /// c\n/* d".toList = " b \n/* d".toList := by decide +kernel

end References

end SourceAtlas
