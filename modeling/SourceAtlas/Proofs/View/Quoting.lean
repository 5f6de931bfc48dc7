import Mathlib.Data.List.Basic
import SourceAtlas.View.Dot

/-!
# Where a quoted text ends

An escaped text is a sequence of pieces: a plain character, or a backslash and one more
character. No piece begins with a quote, and no piece is the beginning of another one
(`escapeChar_append_inj`). Hence the quote that closes a text can be told without knowing whether
the text is a record label, and the text is determined once this is known (`escaped_append_inj`).
-/

namespace SourceAtlas.View

variable {record record' : Bool} {c d : Char} {cs ds rest rest' : List Char}

/-! ### Pieces -/

/-- A character is written as it is, or as a backslash with another character. -/
theorem escapeChar_cases (record : Bool) (c : Char) :
  (escapeChar record c = [c] ∧ c ≠ '\\' ∧ c ≠ '"' ∧ c ≠ '\n')
    ∨ ∃ d, escapeChar record c = ['\\', d] ∧ d ≠ '\n'
  := by
  unfold escapeChar
  split
  · exact .inr ⟨_, rfl, by decide⟩
  · split
    · exact .inr ⟨_, rfl, by decide⟩
    · split
      · exact .inr ⟨_, rfl, by decide⟩
      · split
        · exact .inr ⟨_, rfl, ‹_›⟩
        · exact .inl ⟨rfl, ‹_›, ‹_›, ‹_›⟩

/-- The character that a piece stands for. -/
def pieceChar : List Char → Char
  | [_, 'n'] => '\n'
  | [_, d] => d
  | [c] => c
  | _ => '\\'

theorem pieceChar_escapeChar (record : Bool) (c : Char) :
  pieceChar (escapeChar record c) = c
  := by
  unfold escapeChar
  split
  · simp_all [pieceChar]
  · split
    · simp_all [pieceChar]
    · split
      · simp_all [pieceChar]
      · split
        · rename_i sign
          have proper : c ≠ 'n' := by
            rintro rfl
            simp at sign
          rw [pieceChar]
          simpa using proper
        · rfl

/-- No piece is the beginning of another one. -/
theorem escapeChar_append_inj
    (h : escapeChar record c ++ rest = escapeChar record' d ++ rest') :
  escapeChar record c = escapeChar record' d ∧ rest = rest'
  := by
  obtain ⟨plain, backslash, -⟩ | ⟨e, pair, -⟩ := escapeChar_cases record c
  · obtain ⟨plain', -⟩ | ⟨e', pair', -⟩ := escapeChar_cases record' d
    · rw [plain, plain'] at h ⊢
      simpa using h
    · rw [plain, pair'] at h
      exact absurd (List.cons.inj h).1 backslash
  · obtain ⟨plain', backslash, -⟩ | ⟨e', pair', -⟩ := escapeChar_cases record' d
    · rw [pair, plain'] at h
      exact absurd (List.cons.inj h).1.symm backslash
    · rw [pair, pair'] at h ⊢
      simpa using h

/-- A piece does not begin with a quote. -/
theorem escapeChar_append_ne_quote :
  escapeChar record c ++ rest ≠ '"' :: rest'
  := by
  intro h
  obtain ⟨plain, -, quote, -⟩ | ⟨e, pair, -⟩ := escapeChar_cases record c
  · rw [plain] at h
    exact quote (List.cons.inj h).1
  · simp [pair] at h

/-! ### Texts -/

/-- The characters of an escaped text. -/
def escaped (record : Bool) (cs : List Char) : List Char :=
  cs.flatMap (escapeChar record)

@[simp]
theorem toList_escape (record : Bool) (text : String) :
  (escape record text).toList = escaped record text.toList
  := by
  simp [escape, escaped]

@[simp]
theorem toList_quote (text : String) :
  (quote text).toList = '"' :: (escaped false text.toList ++ ['"'])
  := by
  simp [quote]

theorem escaped_cons (record : Bool) (c : Char) (cs : List Char) :
  escaped record (c :: cs) = escapeChar record c ++ escaped record cs
  := List.flatMap_cons

/-- The first quote that is not part of a piece closes a text, whatever kind of text it is. Two
texts of the same kind that are closed there are equal. -/
theorem escaped_append_inj
    (h : escaped record cs ++ '"' :: rest = escaped record' ds ++ '"' :: rest') :
  rest = rest' ∧ (record = record' → cs = ds)
  := by
  induction cs generalizing ds with
  | nil =>
    cases ds with
    | nil => simpa [escaped] using h
    | cons d ds =>
      rw [escaped_cons, List.append_assoc] at h
      exact absurd h.symm escapeChar_append_ne_quote
  | cons c cs ih =>
    cases ds with
    | nil =>
      rw [escaped_cons, List.append_assoc] at h
      exact absurd h escapeChar_append_ne_quote
    | cons d ds =>
      simp only [escaped_cons, List.append_assoc] at h
      obtain ⟨piece, later⟩ := escapeChar_append_inj h
      obtain ⟨same, texts⟩ := ih later
      use same
      rintro rfl
      rw [texts rfl, ← pieceChar_escapeChar record c, piece, pieceChar_escapeChar]

theorem quote_append_inj {s t : String}
    (h : (quote s).toList ++ rest = (quote t).toList ++ rest') :
  s = t ∧ rest = rest'
  := by
  simp only [toList_quote, List.cons_append, List.append_assoc, List.nil_append] at h
  obtain ⟨same, texts⟩ := escaped_append_inj (List.cons.inj h).2
  exact ⟨String.toList_inj.mp (texts rfl), same⟩

/-! ### Lines -/

theorem newline_not_mem_escaped (record : Bool) (cs : List Char) :
  '\n' ∉ escaped record cs
  := by
  intro h
  obtain ⟨c, -, hc⟩ := List.mem_flatMap.mp h
  obtain ⟨plain, -, -, proper⟩ | ⟨e, pair, proper⟩ := escapeChar_cases record c
  · rw [plain] at hc
    exact proper (List.mem_singleton.mp hc).symm
  · rw [pair] at hc
    simp [proper.symm] at hc

end SourceAtlas.View
