import Mathlib.Data.List.Infix
import SourceAtlas.Proofs.Text.Classes
import SourceAtlas.Text.Lowercase

/-!
# Lower case forms of a part of a text

The lower case form of a text is put together from those of its characters, and only the form of a
capital sigma depends on what stands around it (`lowerBetween_congr`). A capital sigma is exposed in
a text if the text alone does not settle its form. A text without exposed capital sigmas has the
same lower case form wherever it stands (`lowerBetween_of_not_exposed`). An exposed one takes
another form when a letter is put to the right end of the text (`not_infix_concat`) or to the left
one (`not_infix_cons`).
-/

namespace SourceAtlas.Text

variable {before before' after after' left right cs : List Char}

/-! ### Forms between other characters -/

/-- The lower case form of a text between the characters `before`, nearest first, and `after`. -/
def lowerBetween (before : List Char) : List Char → (after : List Char) → List Char
  | [], _ => []
  | c :: cs, after =>
    (if c == capitalSigma then [lowerSigma before (cs ++ after)] else lowerChar c)
      ++ lowerBetween (c :: before) cs after

theorem lowerBetween_sigma (before cs after : List Char) :
  lowerBetween before (capitalSigma :: cs) after
    = lowerSigma before (cs ++ after) :: lowerBetween (capitalSigma :: before) cs after
  := by
  rw [lowerBetween, if_pos (by simp)]
  rfl

theorem lowerBetween_of_ne {c : Char} (other : c ≠ capitalSigma) (before cs after : List Char) :
  lowerBetween before (c :: cs) after = lowerChar c ++ lowerBetween (c :: before) cs after
  := by
  rw [lowerBetween, if_neg (by simpa using other)]

theorem lowerBetween_append (before xs ys after : List Char) :
  lowerBetween before (xs ++ ys) after
    = lowerBetween before xs (ys ++ after) ++ lowerBetween (xs.reverse ++ before) ys after
  := by
  induction xs generalizing before with
  | nil => rfl
  | cons x xs ih => simp [lowerBetween, ih]

theorem lowerFrom_eq_lowerBetween (before cs : List Char) :
  lowerFrom before cs = lowerBetween before cs []
  := by
  induction cs generalizing before with
  | nil => rfl
  | cons c cs ih => rw [lowerFrom, lowerBetween, ih, List.append_nil]

/-- The form of a whole text is made up of the forms of its parts, each between the others. -/
theorem lowerFrom_append (left cs right : List Char) :
  lowerFrom [] (left ++ (cs ++ right))
    = lowerBetween [] left (cs ++ right) ++ (lowerBetween left.reverse cs right
      ++ lowerBetween (cs.reverse ++ left.reverse) right [])
  := by
  rw [lowerFrom_eq_lowerBetween, lowerBetween_append, lowerBetween_append]
  simp only [List.append_nil]

/-- The forms of a text between different characters agree if those of its capital sigmas do. -/
theorem lowerBetween_congr
    (same : ∀ left right, cs = left ++ capitalSigma :: right →
      lowerSigma (left.reverse ++ before) (right ++ after)
        = lowerSigma (left.reverse ++ before') (right ++ after')) :
  lowerBetween before cs after = lowerBetween before' cs after'
  := by
  induction cs generalizing before before' with
  | nil => rfl
  | cons c cs ih =>
    have rest : lowerBetween (c :: before) cs after = lowerBetween (c :: before') cs after' := by
      apply ih
      rintro left right rfl
      simpa using same (c :: left) right rfl
    by_cases sigma : c = capitalSigma
    · subst sigma
      rw [lowerBetween_sigma, lowerBetween_sigma, rest]
      congr 1
      apply same [] cs rfl
    · rw [lowerBetween_of_ne sigma, lowerBetween_of_ne sigma, rest]

/-- If no capital sigma ceases to have the form `s`, there are not fewer of it. -/
theorem count_lowerBetween_le {s : Char}
    (keeps : ∀ left right, cs = left ++ capitalSigma :: right →
      lowerSigma (left.reverse ++ before) (right ++ after) = s →
      lowerSigma (left.reverse ++ before') (right ++ after') = s) :
  (lowerBetween before cs after).count s ≤ (lowerBetween before' cs after').count s
  := by
  induction cs generalizing before before' with
  | nil => apply Nat.le_refl
  | cons c cs ih =>
    have rest : (lowerBetween (c :: before) cs after).count s
        ≤ (lowerBetween (c :: before') cs after').count s := by
      apply ih
      rintro left right rfl
      simpa using keeps (c :: left) right rfl
    by_cases sigma : c = capitalSigma
    · subst sigma
      have here : lowerSigma before (cs ++ after) = s → lowerSigma before' (cs ++ after') = s :=
        keeps [] cs rfl
      rw [lowerBetween_sigma, lowerBetween_sigma, List.count_cons, List.count_cons]
      apply Nat.add_le_add rest
      grind
    · rw [lowerBetween_of_ne sigma, lowerBetween_of_ne sigma, List.count_append, List.count_append]
      apply Nat.add_le_add_left rest

/-- If one capital sigma besides takes the form `s`, there are more of it. -/
theorem count_lowerBetween_lt {s : Char}
    (keeps : ∀ l r, left ++ capitalSigma :: right = l ++ capitalSigma :: r →
      lowerSigma (l.reverse ++ before) (r ++ after) = s →
      lowerSigma (l.reverse ++ before') (r ++ after') = s)
    (other : lowerSigma (left.reverse ++ before) (right ++ after) ≠ s)
    (taken : lowerSigma (left.reverse ++ before') (right ++ after') = s) :
  (lowerBetween before (left ++ capitalSigma :: right) after).count s
    < (lowerBetween before' (left ++ capitalSigma :: right) after').count s
  := by
  have first : (lowerBetween before left (capitalSigma :: right ++ after)).count s
      ≤ (lowerBetween before' left (capitalSigma :: right ++ after')).count s := by
    apply count_lowerBetween_le
    rintro l r rfl
    simpa using keeps l (r ++ capitalSigma :: right)
  have rest : (lowerBetween (capitalSigma :: (left.reverse ++ before)) right after).count s
      ≤ (lowerBetween (capitalSigma :: (left.reverse ++ before')) right after').count s := by
    apply count_lowerBetween_le
    rintro l r rfl
    simpa using keeps (left ++ capitalSigma :: l) r
  rw [lowerBetween_append, lowerBetween_append, lowerBetween_sigma, lowerBetween_sigma, taken,
    List.count_append, List.count_append, List.count_cons_of_ne other, List.count_cons_self]
  omega

/-! ### Exposed capital sigmas -/

theorem smallSigma_ne_finalSigma :
  smallSigma ≠ finalSigma
  := by
  decide

theorem lowerSigma_eq_final_iff :
  lowerSigma before after = finalSigma ↔ startsCased before = true ∧ startsCased after = false
  := by
  rw [lowerSigma]
  split
  · rename_i final
    simpa using final
  · rename_i other
    simpa [smallSigma_ne_finalSigma] using other

theorem lowerSigma_eq_small_iff :
  lowerSigma before after = smallSigma ↔ lowerSigma before after ≠ finalSigma
  := by
  rw [lowerSigma]
  split
  · simp [smallSigma_ne_finalSigma.symm]
  · simp [smallSigma_ne_finalSigma]

theorem startsCased_cons_of_ignorable {c : Char} (ignorable : isCaseIgnorable c = true) :
  startsCased (c :: cs) = startsCased cs
  := by
  rw [startsCased, List.dropWhile_cons_of_pos ignorable, startsCased]

theorem startsCased_cons_of_not_ignorable {c : Char} (seen : ¬ isCaseIgnorable c = true) :
  startsCased (c :: cs) = isCased c
  := by
  rw [startsCased, List.dropWhile_cons_of_neg seen]

/-- The first letter of a text is looked for past ignorable characters, and in what follows the text
if it has no others. -/
theorem startsCased_append (xs ys : List Char) :
  startsCased (xs ++ ys) = if xs.all isCaseIgnorable then startsCased ys else startsCased xs
  := by
  induction xs with
  | nil => rfl
  | cons x xs ih =>
    by_cases ignorable : isCaseIgnorable x = true
    · rw [List.cons_append, startsCased_cons_of_ignorable ignorable, ih,
        startsCased_cons_of_ignorable ignorable, List.all_cons, ignorable, Bool.true_and]
    · rw [List.cons_append, startsCased_cons_of_not_ignorable ignorable,
        startsCased_cons_of_not_ignorable ignorable, List.all_cons, if_neg (by simp [ignorable])]

theorem startsCased_of_all (ignorable : cs.all isCaseIgnorable = true) :
  startsCased cs = false
  := by
  have h := startsCased_append cs []
  rw [List.append_nil, if_pos ignorable] at h
  apply h

theorem startsCased_append_of_cased (cased : startsCased left = true) :
  startsCased (left ++ right) = true
  := by
  have seen : ¬ left.all isCaseIgnorable = true := by
    intro ignorable
    rw [startsCased_of_all ignorable] at cased
    contradiction
  rw [startsCased_append, if_neg seen, cased]

/-- A capital sigma whose form is not settled inside of the text: between it and one of the ends
there are ignorable characters only, and what stands on its other side leaves both forms open. -/
def Exposed (cs : List Char) : Prop :=
  ∃ left right, cs = left ++ capitalSigma :: right
    ∧ ((startsCased left.reverse = true ∧ right.all isCaseIgnorable = true)
      ∨ (left.all isCaseIgnorable = true ∧ startsCased right = false))

theorem not_exposed_of_not_mem (h : capitalSigma ∉ cs) :
  ¬ Exposed cs
  := by
  rintro ⟨left, right, rfl, -⟩
  exact h List.mem_append_cons_self

theorem lowerSigma_of_not_exposed (settled : ¬ Exposed (left ++ capitalSigma :: right)) :
  lowerSigma (left.reverse ++ before) (right ++ after) = lowerSigma left.reverse right
  := by
  have last : ¬ (startsCased left.reverse = true ∧ right.all isCaseIgnorable = true) :=
    fun h => settled ⟨left, right, rfl, .inl h⟩
  have first : ¬ (left.all isCaseIgnorable = true ∧ startsCased right = false) :=
    fun h => settled ⟨left, right, rfl, .inr h⟩
  rw [lowerSigma, lowerSigma, startsCased_append, startsCased_append, List.all_reverse]
  by_cases leftmost : left.all isCaseIgnorable = true
  · have letter : startsCased right = true := by simpa [leftmost] using first
    rw [← startsCased_append, startsCased_append_of_cased letter, letter]
    simp
  · by_cases rightmost : right.all isCaseIgnorable = true
    · have letterless : startsCased left.reverse = false := by simpa [rightmost] using last
      simp [leftmost, letterless]
    · rw [if_neg leftmost, if_neg rightmost]

/-- A text without exposed capital sigmas has its lower case form wherever it stands. -/
theorem lowerBetween_of_not_exposed (settled : ¬ Exposed cs) (before after : List Char) :
  lowerBetween before cs after = lowerFrom [] cs
  := by
  rw [lowerFrom_eq_lowerBetween]
  apply lowerBetween_congr
  rintro left right rfl
  rw [lowerSigma_of_not_exposed settled, lowerSigma_of_not_exposed settled]

theorem lowerFrom_infix {text : List Char} (settled : ¬ Exposed cs) (part : cs <:+: text) :
  lowerFrom [] cs <:+: lowerFrom [] text
  := by
  obtain ⟨left, right, rfl⟩ := part
  rw [List.append_assoc, lowerFrom_append, lowerBetween_of_not_exposed settled]
  exact ⟨_, _, List.append_assoc _ _ _⟩

/-! ### A letter at one of the ends -/

theorem startsCased_letter :
  startsCased ['a'] = true
  := by
  rw [startsCased_cons_of_not_ignorable]
  · decide
  · rw [isCaseIgnorable, CodePoints.contains_eq_any_toList]
    decide +kernel

theorem lowerChar_letter :
  lowerChar 'a' = ['a']
  := by
  decide

/-- A letter at the right end takes the final form from a capital sigma that is exposed there. No
other capital sigma gets the final form instead, so that there are not enough of it. -/
theorem not_infix_concat (cased : startsCased left.reverse = true)
    (ignorable : right.all isCaseIgnorable = true) :
  let cs := left ++ capitalSigma :: right
  ¬ lowerFrom [] cs <:+: lowerFrom [] (cs ++ ['a'])
  := by
  intro cs part
  have fewer : (lowerBetween [] cs ['a']).count finalSigma
      < (lowerBetween [] cs []).count finalSigma := by
    apply count_lowerBetween_lt
    · intro l r _
      simp only [lowerSigma_eq_final_iff, List.append_nil]
      rintro ⟨cased, letterless⟩
      use cased
      by_contra letter
      rw [Bool.not_eq_false] at letter
      rw [startsCased_append_of_cased letter] at letterless
      contradiction
    · rw [Ne, lowerSigma_eq_final_iff, startsCased_append right, if_pos ignorable,
        startsCased_letter]
      simp
    · rw [lowerSigma_eq_final_iff, List.append_nil, List.append_nil]
      exact ⟨cased, startsCased_of_all ignorable⟩
  have held := part.sublist.count_le finalSigma
  have ends : lowerFrom [] (cs ++ ['a']) = lowerBetween [] cs ['a'] ++ ['a'] := by
    rw [lowerFrom_eq_lowerBetween, lowerBetween_append, lowerBetween_of_ne (by decide),
      lowerChar_letter]
    rfl
  rw [ends, lowerFrom_eq_lowerBetween, List.count_append, List.count_cons_of_ne (by decide),
    List.count_nil] at held
  omega

/-- A letter at the left end gives the final form to a capital sigma that is exposed there. -/
theorem not_infix_cons (ignorable : left.all isCaseIgnorable = true)
    (letterless : startsCased right = false) :
  let cs := left ++ capitalSigma :: right
  ¬ lowerFrom [] cs <:+: lowerFrom [] ('a' :: cs)
  := by
  intro cs part
  have fewer : (lowerBetween ['a'] cs []).count smallSigma
      < (lowerBetween [] cs []).count smallSigma := by
    apply count_lowerBetween_lt
    · intro l r _
      simp only [lowerSigma_eq_small_iff, Ne, lowerSigma_eq_final_iff, List.append_nil]
      intro small final
      exact small ⟨startsCased_append_of_cased final.1, final.2⟩
    · rw [Ne, lowerSigma_eq_small_iff, not_not, lowerSigma_eq_final_iff, startsCased_append,
        List.all_reverse, if_pos ignorable, List.append_nil]
      exact ⟨startsCased_letter, letterless⟩
    · rw [lowerSigma_eq_small_iff, Ne, lowerSigma_eq_final_iff, List.append_nil,
        startsCased_of_all (by rwa [List.all_reverse])]
      simp
  have held := part.sublist.count_le smallSigma
  have starts : lowerFrom [] ('a' :: cs) = 'a' :: lowerBetween ['a'] cs [] := by
    rw [lowerFrom_eq_lowerBetween, lowerBetween_of_ne (by decide), lowerChar_letter]
    rfl
  rw [starts, lowerFrom_eq_lowerBetween, List.count_cons_of_ne (by decide)] at held
  omega

/-- A text with an exposed capital sigma stands in another one, of as many dots, whose lower case
form does not hold that of the text. -/
theorem exists_not_infix (h : Exposed cs) :
  ∃ text, cs <:+: text ∧ text.count '.' = cs.count '.' ∧ ¬ lowerFrom [] cs <:+: lowerFrom [] text
  := by
  obtain ⟨left, right, rfl, ⟨cased, ignorable⟩ | ⟨ignorable, letterless⟩⟩ := h
  · use left ++ capitalSigma :: right ++ ['a']
    and_intros
    · apply (List.prefix_append _ _).isInfix
    · rw [List.count_append, List.count_cons_of_ne (by decide), List.count_nil, Nat.add_zero]
    · apply not_infix_concat cased ignorable
  · use 'a' :: (left ++ capitalSigma :: right)
    and_intros
    · apply (List.suffix_cons _ _).isInfix
    · apply List.count_cons_of_ne
      decide
    · apply not_infix_cons ignorable letterless

end SourceAtlas.Text
