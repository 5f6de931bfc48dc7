import SourceAtlas.Text.Blank
import SourceAtlas.Text.Word

/-!
# Word characters and blank characters

No character is both a word character and a blank one (`isWord_of_isBlank`), and the signs that
stand between names are neither. So where a run of one class ends, no run of the other class has
begun earlier.
-/

namespace SourceAtlas.Text

variable {c : Char}

/-- The tables are long, and they are searched faster as lists. -/
theorem CodePoints.contains_eq_any_toList (s : CodePoints) (c : Char) :
  s.contains c
    = (s.solid.toList.any (fun r => r.1 ≤ c.toNat && c.toNat ≤ r.2)
      || s.alternating.toList.any
        (fun r => r.1 ≤ c.toNat && c.toNat ≤ r.2 && (c.toNat - r.1) % 2 == 0))
  := by
  rw [contains, Array.any_toList, Array.any_toList]

/-- A character of a set lies in one of its ranges. -/
theorem CodePoints.exists_range {s : CodePoints} (h : s.contains c = true) :
  ∃ r ∈ s.solid.toList ++ s.alternating.toList, r.1 ≤ c.toNat ∧ c.toNat ≤ r.2
  := by
  rw [contains_eq_any_toList, Bool.or_eq_true, List.any_eq_true, List.any_eq_true] at h
  obtain ⟨r, listed, within⟩ | ⟨r, listed, within⟩ := h
  · refine ⟨r, List.mem_append_left _ listed, ?_⟩
    simpa using within
  · refine ⟨r, List.mem_append_right _ listed, ?_⟩
    simp only [Bool.and_eq_true, decide_eq_true_eq] at within
    exact within.1

/-- The letters, the digits and the low line come after all signs up to the space. -/
theorem isAlphanum_of_le (low : c.toNat ≤ 0x20) :
  (c.isAlphanum || c == '_') = false
  := by
  have table : ∀ n < 0x21, ((Char.ofNat n).isAlphanum || Char.ofNat n == '_') = false := by decide
  rw [← Char.ofNat_toNat c]
  apply table
  omega

/-- The ranges of the blank characters lie between those of the word characters. -/
theorem ranges_apart :
  ∀ r ∈ blankPoints.solid.toList ++ blankPoints.alternating.toList,
    (r.2 ≤ 0x20 ∨ 0x80 ≤ r.1)
      ∧ ∀ s ∈ wordPoints.solid.toList ++ wordPoints.alternating.toList, r.2 < s.1 ∨ s.2 < r.1
  := by
  decide +kernel

theorem isWord_of_isBlank (h : isBlank c = true) :
  isWord c = false
  := by
  obtain ⟨r, blank, lower, upper⟩ := CodePoints.exists_range h
  obtain ⟨ascii, apart⟩ := ranges_apart r blank
  rw [isWord]
  split
  · apply isAlphanum_of_le
    omega
  · rw [← Bool.not_eq_true]
    intro word
    obtain ⟨s, listed, lower', upper'⟩ := CodePoints.exists_range word
    have := apart s listed
    omega

theorem isBlank_of_isWord (h : isWord c = true) :
  isBlank c = false
  := by
  rw [← Bool.not_eq_true]
  intro blank
  rw [isWord_of_isBlank blank] at h
  cases h

/-- The signs that stand between names are neither word characters nor blank. -/
theorem isWord_isBlank_of_sign :
  ∀ c ∈ ['@', '(', ')', ';', ',', '.', '[', ']'], isWord c = false ∧ isBlank c = false
  := by
  have table : ['@', '(', ')', ';', ',', '.', '[', ']'].all (fun c => !isWord c && !isBlank c) := by
    decide +kernel
  intro c listed
  simpa using List.all_eq_true.mp table c listed

end SourceAtlas.Text
