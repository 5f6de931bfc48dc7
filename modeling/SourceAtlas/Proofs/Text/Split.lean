import Mathlib.Data.List.TakeWhile
import SourceAtlas.Proofs.Lists
import SourceAtlas.Text.Split

/-!
# Fields of a text

The fields that a separator cuts a text into are those of the library (`splitOn_eq`). They are parts
of the text without the separator in them. The text behind the last separator is found from the end
(`afterLast_eq_iff`), and so is the stem of a file name, which ends before its last dot
(`splitExtension_eq_iff`).
-/

namespace SourceAtlas.Text

variable {sep : Char} {cs : List Char}

theorem splitOn_eq (sep : Char) (cs : List Char) :
  splitOn sep cs = cs.splitOn sep
  := by
  induction cs with
  | nil => rfl
  | cons c cs ih =>
    rw [splitOn, ih]
    simp only [List.splitOn, List.splitOnP_cons_eq_if_modifyHead]
    cases fields : List.splitOnP (· == sep) cs with
    | nil => exact absurd fields (List.splitOnP_ne_nil _ cs)
    | cons field fields =>
      cases c == sep with
      | true => rfl
      | false => rfl

theorem splitOn_cons_sep (sep : Char) (cs : List Char) :
  splitOn sep (sep :: cs) = [] :: splitOn sep cs
  := by
  rw [splitOn, beq_self_eq_true]

theorem splitOn_cons_of_ne {c : Char} (ne : c ≠ sep) {field : List Char} {fields : List (List Char)}
    (split : splitOn sep cs = field :: fields) :
  splitOn sep (c :: cs) = (c :: field) :: fields
  := by
  rw [splitOn, split, beq_false_of_ne ne]

theorem splitOn_ne_nil (sep : Char) (cs : List Char) :
  splitOn sep cs ≠ []
  := by
  rw [splitOn_eq]
  apply List.splitOnP_ne_nil

theorem not_mem_of_mem_splitOn {field : List Char} (h : field ∈ splitOn sep cs) :
  sep ∉ field
  := by
  induction cs generalizing field with
  | nil =>
    obtain rfl := List.mem_singleton.mp h
    simp
  | cons c cs ih =>
    obtain ⟨first, rest, split⟩ := List.exists_cons_of_ne_nil (splitOn_ne_nil sep cs)
    rw [split] at ih
    by_cases same : c = sep
    · rw [same, splitOn_cons_sep, split] at h
      obtain rfl | h := List.mem_cons.mp h
      · simp
      · apply ih h
    · rw [splitOn_cons_of_ne same split] at h
      obtain rfl | h := List.mem_cons.mp h
      · rw [List.mem_cons, not_or]
        exact ⟨Ne.symm same, ih List.mem_cons_self⟩
      · apply ih (List.mem_cons_of_mem first h)

theorem infix_of_mem_splitOn {field : List Char} (h : field ∈ splitOn sep cs) :
  field <:+: cs
  := by
  rw [splitOn_eq] at h
  have part : field <:+: [sep].intercalate (cs.splitOn sep) := infix_intercalate h
  rwa [List.intercalate_splitOn] at part

theorem splitOn_of_not_mem (h : sep ∉ cs) :
  splitOn sep cs = [cs]
  := by
  rw [splitOn_eq, List.splitOn_eq_singleton h]

/-! ### The last separator -/

/-- The text behind the last occurrence of the separator, or all of the text if there is none. -/
def IsLastField (sep : Char) (cs last : List Char) : Prop :=
  sep ∉ last ∧ (cs = last ∨ ∃ before, cs = before ++ sep :: last)

theorem bne_of_mem_reverse (h : sep ∉ cs) :
  ∀ c ∈ cs.reverse, (c != sep) = true
  := by
  intro c hc
  rw [bne_iff_ne]
  rintro rfl
  exact h (List.mem_reverse.mp hc)

theorem afterLast_of_not_mem (h : sep ∉ cs) :
  afterLast sep cs = cs
  := by
  rw [afterLast, List.takeWhile_eq_self_iff.mpr (bne_of_mem_reverse h), List.reverse_reverse]

/-- What comes after the last separator does not depend on what comes before an earlier one. -/
theorem afterLast_append_cons (before after : List Char) :
  afterLast sep (before ++ sep :: after) = afterLast sep after
  := by
  rw [afterLast, afterLast, List.reverse_append, List.reverse_cons, List.append_assoc,
    List.takeWhile_append]
  split
  · rename_i whole
    rw [(List.takeWhile_prefix _).eq_of_length whole]
    simp
  · rfl

theorem exists_last_of_mem (h : sep ∈ cs) :
  ∃ before last, cs = before ++ sep :: last ∧ sep ∉ last
  := by
  obtain ⟨last, before, split, missing⟩ := List.eq_append_cons_of_mem (List.mem_reverse.mpr h)
  refine ⟨before.reverse, last.reverse, ?_, by simpa using missing⟩
  rw [← cs.reverse_reverse, split]
  simp

theorem afterLast_eq_iff {last : List Char} :
  afterLast sep cs = last ↔ IsLastField sep cs last
  := by
  constructor
  · rintro rfl
    by_cases h : sep ∈ cs
    · obtain ⟨before, last, rfl, missing⟩ := exists_last_of_mem h
      rw [afterLast_append_cons, afterLast_of_not_mem missing]
      exact ⟨missing, .inr ⟨before, rfl⟩⟩
    · rw [afterLast_of_not_mem h]
      exact ⟨h, .inl rfl⟩
  · rintro ⟨missing, rfl | ⟨before, rfl⟩⟩
    · apply afterLast_of_not_mem missing
    · rw [afterLast_append_cons, afterLast_of_not_mem missing]

theorem splitLast?_of_not_mem (h : sep ∉ cs) :
  splitLast? sep cs = none
  := by
  rw [splitLast?, List.dropWhile_eq_nil_iff.mpr (bne_of_mem_reverse h)]

theorem splitLast?_append_cons {last : List Char} (missing : sep ∉ last) (before : List Char) :
  splitLast? sep (before ++ sep :: last) = some (before, last)
  := by
  have run : (before ++ sep :: last).reverse.dropWhile (· != sep) = sep :: before.reverse := by
    rw [List.reverse_append, List.reverse_cons, List.append_assoc,
      List.dropWhile_append_of_pos (bne_of_mem_reverse missing)]
    simp
  rw [splitLast?, run, afterLast_append_cons, afterLast_of_not_mem missing]
  simp

/-! ### Stems -/

/-- The stem of a file name: what stands before its last dot, and the whole name if there is no dot
but at the start. -/
inductive IsStem : List Char → List Char → Prop where
  | whole {name : List Char} (dotless : '.' ∉ name.tail) : IsStem name name
  | cut {stem extension : List Char} (proper : stem ≠ []) (dotless : '.' ∉ extension) :
    IsStem (stem ++ '.' :: extension) stem

theorem isStem_splitExtension (name : List Char) :
  IsStem name (splitExtension name).1
  := by
  by_cases h : '.' ∈ name
  · obtain ⟨before, last, rfl, dotless⟩ := exists_last_of_mem h
    rw [splitExtension, splitLast?_append_cons dotless]
    cases before with
    | nil => exact .whole dotless
    | cons c before => exact .cut (List.cons_ne_nil c before) dotless
  · rw [splitExtension, splitLast?_of_not_mem h]
    exact .whole (mt List.mem_of_mem_tail h)

theorem splitExtension_eq_iff {name stem : List Char} :
  (splitExtension name).1 = stem ↔ IsStem name stem
  := by
  constructor
  · rintro rfl
    apply isStem_splitExtension
  · intro h
    cases h with
    | cut proper dotless =>
      obtain ⟨c, before, rfl⟩ := List.exists_cons_of_ne_nil proper
      rw [splitExtension, splitLast?_append_cons dotless]
    | whole dotless =>
      by_cases h : '.' ∈ name
      · obtain ⟨before, last, rfl, dotless'⟩ := exists_last_of_mem h
        cases before with
        | nil => rw [splitExtension, splitLast?_append_cons dotless']
        | cons c before => simp at dotless
      · rw [splitExtension, splitLast?_of_not_mem h]

end SourceAtlas.Text
