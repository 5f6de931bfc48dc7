import SourceAtlas.Proofs.Lists
import SourceAtlas.Proofs.References.Tokens

/-!
# Mentions that are not missed

A name that a text mentions in one of five ways (`Mention`) is found, although the search never
looks inside an earlier occurrence. Two families of patterns are treated once each. A clause starts
with a keyword, and an earlier clause could only take that keyword for the end of its own name
(`Clause.apart`). An access starts with a whole word, and an earlier access could only take that
word for its member (`Access.apart`). Neither is possible, because of what has to follow. The name
that is kept is then fixed by the characters around it (`Clause.mem_kept`, `Access.mem_kept`).
Nothing follows the name of an annotation, so there it is the longest that fits
(`annotation_mem_kept`).
-/

namespace SourceAtlas

namespace References

open Text (Piece Pattern Occurrence isWord isBlank IsRun)
open Text.Pattern (Covers Apart)

variable {before covered rest after blank n m t : List Char} {kept : List (List Char)}
  {p : Pattern} {o : Occurrence} {text x : String} {c : Char}

/-! ### Cutting a text at a character -/

/-- A character that is not in the first part stands in the second one. -/
theorem split_of_not_mem_left {xs ys a b : List Char} (missing : c ∉ xs)
    (h : a ++ c :: b = xs ++ ys) :
  ∃ a', ys = a' ++ c :: b
  := by
  obtain ⟨a', rfl, later⟩ | ⟨a', rfl, rfl⟩ := List.append_eq_append_iff.mp h
  · cases a' with
    | nil => exact ⟨[], later.symm⟩
    | cons d a' =>
      obtain ⟨rfl, -⟩ := List.cons.inj later
      simp at missing
  · exact ⟨a', rfl⟩

/-- A character that is not in the second part stands in the first one. -/
theorem split_of_not_mem_right {xs ys a b : List Char} (missing : c ∉ ys)
    (h : a ++ c :: b = xs ++ ys) :
  ∃ b', b = b' ++ ys ∧ xs = a ++ c :: b'
  := by
  obtain ⟨a', rfl, later⟩ | ⟨a', rfl, rfl⟩ := List.append_eq_append_iff.mp h
  · cases a' with
    | nil =>
      obtain rfl : ys = c :: b := later.symm
      simp at missing
    | cons d a' =>
      obtain ⟨rfl, rfl⟩ := List.cons.inj later
      exact ⟨a', rfl, rfl⟩
  · simp at missing

theorem forall_head?_append {P : Char → Prop} {xs ys : List Char} (proper : xs ≠ [])
    (h : ∀ c ∈ xs, P c) :
  ∀ c ∈ (xs ++ ys).head?, P c
  := by
  intro c first
  rw [List.head?_append_of_ne_nil xs proper] at first
  apply h c (List.mem_of_mem_head? first)

/-! ### From the search to the candidates -/

/-- What a pattern covers apart from all that starts before it gives a candidate, if the pattern can
keep only one name there. -/
theorem mem_candidates_of_apart (hp : p ∈ patterns)
    (split : stripComments text.toList = before ++ (covered ++ rest)) (proper : covered ≠ [])
    (covers : Covers p covered kept) (apart : Apart p before (covered ++ rest))
    (unique : ∀ o, p.occurrence? (covered ++ rest) = some o → x.toList ∈ o.kept)
    (named : x.toList ≠ []) (plain : ∀ c ∈ x.toList, isBlank c = false ∧ c ≠ ',') :
  x ∈ candidates text
  := by
  obtain ⟨o, fits⟩ := Option.ne_none_iff_exists'.mp (@Covers.occurrence?_ne_none _ _ rest _ covers)
  have found : o ∈ p.occurrences (stripComments text.toList) := by
    rw [split]
    apply Text.Pattern.mem_occurrences_of_apart _ fits apart
    simp [proper]
  refine mem_candidates.mpr ⟨p, hp, o, found, x.toList, unique o fits, ?_⟩
  rw [tokens_of_plain named plain]
  apply List.mem_singleton_self

/-! ### Clauses that start with a keyword -/

/-- A keyword, a run of blanks, a name and what closes the clause. The keyword could itself be read
as a name, but it starts with a character that is not found again in it. -/
structure Clause where
  /-- The first character of the keyword. -/
  first : Char
  /-- The other characters of the keyword. -/
  others : List Char
  /-- The characters of names. -/
  accepts : Char → Bool
  /-- The pattern behind the name. -/
  tail : Pattern
  /-- The last character of the clause. -/
  close : Char
  fresh : first ∉ others
  letters : ∀ c ∈ first :: others, accepts c = true
  plain : ∀ c, accepts c = true → isBlank c = false ∧ c ≠ ','
  closing : accepts close = false ∧ isBlank close = false
  ends : ∀ {t kept}, Covers tail t kept →
    ∃ blank, t = blank ++ [close] ∧ ∀ c ∈ blank, isBlank c = true

namespace Clause

variable {k : Clause}

/-- The keyword. -/
def keyword (k : Clause) : List Char := k.first :: k.others

/-- The pattern of the clause. -/
def pattern (k : Clause) : Pattern :=
  .text k.keyword :: gap :: .longest true 1 k.accepts :: k.tail

theorem not_accepts_of_isBlank (h : isBlank c = true) :
  ¬ k.accepts c = true
  := by
  intro accepted
  simp [k.plain c accepted] at h

theorem not_accepts_tail (h : Covers k.tail t kept) :
  ∀ c ∈ t, ¬ k.accepts c = true
  := by
  obtain ⟨blank, rfl, blanks⟩ := k.ends h
  intro c here
  obtain inner | last := List.mem_append.mp here
  · apply not_accepts_of_isBlank (blanks c inner)
  · simp [List.mem_singleton.mp last, k.closing.1]

theorem tail_stops (h : Covers k.tail t kept) :
  ∀ c ∈ (t ++ rest).head?, ¬ k.accepts c = true
  := by
  have proper : t ≠ [] := by
    obtain ⟨blank, rfl, -⟩ := k.ends h
    simp
  exact forall_head?_append proper (not_accepts_tail h)

theorem blanks_stop (h : IsRun isBlank blank) :
  ∀ c ∈ (blank ++ rest).head?, ¬ k.accepts c = true
  := forall_head?_append h.1 fun c here => not_accepts_of_isBlank (h.2 c here)

theorem name_stops (h : IsRun k.accepts n) :
  ∀ c ∈ (n ++ rest).head?, ¬ isBlank c = true
  := forall_head?_append h.1 fun c here => by simp [k.plain c (h.2 c here)]

theorem covers_pattern (blanks : IsRun isBlank blank) (name : IsRun k.accepts n)
    (tail : Covers k.tail t kept) :
  Covers k.pattern (k.keyword ++ (blank ++ (n ++ t))) (n :: kept)
  := by
  have first : (Piece.text k.keyword).Covers k.keyword [] := .text
  have second : gap.Covers blank [] := .pass (List.length_pos_of_ne_nil blanks.1) blanks.2
  have third : (Piece.longest true 1 k.accepts).Covers n [n] :=
    .keep (List.length_pos_of_ne_nil name.1) name.2
  exact .cons first (.cons second (.cons third tail))

theorem of_covers_pattern (h : Covers k.pattern covered kept) :
  ∃ blank n t keptTail, covered = k.keyword ++ (blank ++ (n ++ t)) ∧ n ∈ kept
    ∧ IsRun isBlank blank ∧ IsRun k.accepts n ∧ Covers k.tail t keptTail
  := by
  cases h with
  | cons first h =>
    cases first
    cases h with
    | @cons _ _ blank _ _ _ second h =>
      have blanks := second.isRun
      cases h with
      | @cons _ _ n t _ keptTail third tail =>
        have name := third.isRun
        cases third
        exact ⟨blank, n, t, keptTail, rfl, by simp, blanks, name, tail⟩

/-- Where the first character of the keyword comes again in a clause, it stands in the name. -/
theorem first_in_name {right beyond : List Char} (started : right ≠ [])
    (h : Covers k.pattern (right ++ k.first :: beyond) kept) :
  ∃ later t keptTail, beyond = later ++ t ∧ (∀ c ∈ later, k.accepts c = true)
    ∧ Covers k.tail t keptTail
  := by
  obtain ⟨blank, n, t, keptTail, covered, -, blanks, name, tail⟩ := of_covers_pattern h
  obtain ⟨e, right, rfl⟩ := List.exists_cons_of_ne_nil started
  obtain ⟨-, inner⟩ := List.cons.inj covered
  have letter : k.accepts k.first = true := k.letters _ List.mem_cons_self
  have outside : k.first ∉ blank := fun here => not_accepts_of_isBlank (blanks.2 _ here) letter
  have outside' : k.first ∉ t := fun here => not_accepts_tail tail _ here letter
  obtain ⟨_, inner⟩ := split_of_not_mem_left k.fresh inner
  obtain ⟨_, inner⟩ := split_of_not_mem_left outside inner.symm
  obtain ⟨later, rfl, rfl⟩ := split_of_not_mem_right outside' inner.symm
  exact ⟨later, t, keptTail, rfl, fun c here => name.2 c (by simp [here]), tail⟩

/-- A clause that starts earlier does not reach into a clause. The keyword could only be read as the
end of its name, and the name that follows would start with what closes it. -/
theorem apart (blanks : IsRun isBlank blank) (name : IsRun k.accepts n) :
  Apart k.pattern before (k.keyword ++ (blank ++ (n ++ rest)))
  := by
  intro right beyond rest' kept _ started reaches split covers
  obtain ⟨d, beyond, rfl⟩ := List.exists_cons_of_ne_nil reaches
  rw [keyword, List.cons_append, List.cons_append] at split
  obtain ⟨rfl, behind⟩ := List.cons.inj split
  obtain ⟨later, t, keptTail, rfl, accepted, tail⟩ := first_in_name started covers
  have others : ∀ c ∈ k.others, k.accepts c = true := fun c here =>
    k.letters c (List.mem_cons_of_mem _ here)
  rw [List.append_assoc] at behind
  obtain ⟨-, gaps⟩ :=
    append_inj_of_stop others accepted (blanks_stop blanks) (tail_stops tail) behind
  obtain ⟨close, rfl, closing⟩ := k.ends tail
  rw [List.append_assoc] at gaps
  obtain ⟨-, names⟩ :=
    append_inj_of_stop blanks.2 closing (name_stops name) (by simp [k.closing.2]) gaps
  obtain ⟨f, n, rfl⟩ := List.exists_cons_of_ne_nil name.1
  obtain ⟨rfl, -⟩ := List.cons.inj names
  have closes := name.2 _ List.mem_cons_self
  simp [k.closing.1] at closes

/-- Wherever the clause fits, it keeps the name between the blanks and the closing. -/
theorem mem_kept (blanks : IsRun isBlank blank) (name : IsRun k.accepts n)
    (tail : Covers k.tail t kept)
    (fits : k.pattern.occurrence? (k.keyword ++ (blank ++ (n ++ (t ++ rest)))) = some o) :
  n ∈ o.kept
  := by
  obtain ⟨_, rest', split, -, covers⟩ := Text.Pattern.covers_of_occurrence? fits
  obtain ⟨blank', n', t', keptTail, rfl, listed, blanks', name', tail'⟩ := of_covers_pattern covers
  simp only [List.append_assoc, List.append_cancel_left_eq] at split
  obtain ⟨-, names⟩ :=
    append_inj_of_stop blanks.2 blanks'.2 (name_stops name) (name_stops name') split
  obtain ⟨rfl, -⟩ :=
    append_inj_of_stop name.2 name'.2 (tail_stops tail) (tail_stops tail') names
  apply listed

theorem mem_candidates (hk : k.pattern ∈ patterns) (blanks : IsRun isBlank blank)
    (name : IsRun k.accepts x.toList) (tail : Covers k.tail t kept)
    (split : stripComments text.toList
      = before ++ (k.keyword ++ (blank ++ (x.toList ++ t)) ++ after)) :
  x ∈ candidates text
  := by
  apply mem_candidates_of_apart hk split _ (covers_pattern blanks name tail) _ _ name.1
  · intro c here
    apply k.plain c (name.2 c here)
  · simp [keyword]
  · simp only [List.append_assoc]
    apply apart blanks name
  · intro o fits
    simp only [List.append_assoc] at fits
    apply mem_kept blanks name tail fits

end Clause

theorem of_covers_blanks_paren (h : Covers [blanks, word "("] t kept) :
  ∃ blank, t = blank ++ ['('] ∧ ∀ c ∈ blank, isBlank c = true
  := by
  cases h with
  | @cons _ _ blank _ _ _ first h =>
    cases first with
    | pass _ accepted =>
      cases h with
      | cons second h =>
        cases second
        cases h
        exact ⟨blank, rfl, accepted⟩

theorem covers_blanks_paren (h : ∀ c ∈ blank, isBlank c = true) :
  Covers [blanks, word "("] (blank ++ ['(']) []
  := by
  have first : blanks.Covers blank [] := .pass (Nat.zero_le _) h
  exact .cons first (.cons .text .nil)

/-- A new object of a type. -/
def Clause.creation : Clause where
  first := 'n'
  others := ['e', 'w']
  accepts := isWord
  tail := [blanks, word "("]
  close := '('
  fresh := by decide
  letters := List.all_eq_true.mp (by decide)
  plain c h := plain_of_word (Or.inl h)
  closing := Text.isWord_isBlank_of_sign '(' (by simp)
  ends := of_covers_blanks_paren

/-- An import of a type by its full name. -/
def Clause.importing : Clause where
  first := 'i'
  others := ['m', 'p', 'o', 'r', 't']
  accepts c := isWord c || c == '.'
  tail := [word ";"]
  close := ';'
  fresh := by decide
  letters := List.all_eq_true.mp (by decide)
  plain c h := plain_of_word (by simpa using h)
  closing := by simp [Text.isWord_isBlank_of_sign ';' (by simp)]
  ends := by
    rintro t kept (_ | ⟨⟨⟩, ⟨⟩⟩)
    exact ⟨[], rfl, by simp⟩

/-! ### Accesses to a member -/

theorem outside_of_isBlank (h : isBlank c = true) :
  isWord c = false ∧ c ≠ '.'
  := by
  refine ⟨Text.isWord_of_isBlank h, ?_⟩
  rintro rfl
  simp [Text.isWord_isBlank_of_sign '.' (by simp)] at h

/-- A name, a dot, the name of a member and what stands behind it. -/
structure Access where
  /-- The pattern behind the member. -/
  tail : Pattern
  ends : ∀ {t kept}, Covers tail t kept → t ≠ [] ∧ ∀ c ∈ t, isWord c = false ∧ c ≠ '.'

namespace Access

variable {a : Access}

/-- The pattern of the access. -/
def pattern (a : Access) : Pattern :=
  name :: word "." :: member :: a.tail

theorem covers_pattern (owner : IsRun isWord n) (part : IsRun isWord m)
    (tail : Covers a.tail t kept) :
  Covers a.pattern (n ++ '.' :: (m ++ t)) (n :: kept)
  := by
  have first : name.Covers n [n] := .keep (List.length_pos_of_ne_nil owner.1) owner.2
  have second : (word ".").Covers ['.'] [] := .text
  have third : member.Covers m [] := .pass (List.length_pos_of_ne_nil part.1) part.2
  exact .cons first (.cons second (.cons third tail))

theorem of_covers_pattern (h : Covers a.pattern covered kept) :
  ∃ n m t keptTail, covered = n ++ '.' :: (m ++ t) ∧ n ∈ kept
    ∧ IsRun isWord n ∧ IsRun isWord m ∧ Covers a.tail t keptTail
  := by
  cases h with
  | @cons _ _ n _ _ _ first h =>
    have owner := first.isRun
    cases first
    cases h with
    | cons second h =>
      cases second
      cases h with
      | @cons _ _ m t _ keptTail third tail =>
        exact ⟨n, m, t, keptTail, rfl, by simp, owner, third.isRun, tail⟩

/-- An access that starts earlier does not reach into an access whose owner is a whole word. It
could only have that owner as its member, and no dot follows a member. -/
theorem apart (start : ∀ c ∈ before.getLast?, isWord c = false) (owner : IsRun isWord n) :
  Apart a.pattern before (n ++ '.' :: rest)
  := by
  rintro right beyond rest' kept ⟨front, rfl⟩ started reaches split covers
  obtain ⟨n', m', t, keptTail, covered, -, owner', part', tail⟩ := of_covers_pattern covers
  obtain ⟨proper, outside⟩ := a.ends tail
  obtain ⟨right, d, rfl⟩ := (List.eq_nil_or_concat' right).resolve_left started
  have wordless : isWord d = false := start d (by simp)
  have missing {run : List Char} (words : IsRun isWord run) : d ∉ run := by
    intro here
    simp [words.2 d here] at wordless
  rw [List.append_assoc, List.singleton_append] at covered
  obtain ⟨between, behind⟩ := split_of_not_mem_left (missing owner') covered
  cases between with
  | nil =>
    obtain ⟨-, rfl⟩ := List.cons.inj behind
    rw [List.append_assoc] at split
    have dot := (Text.isWord_isBlank_of_sign '.' (by simp)).1
    have stop : ∀ c ∈ (t ++ rest').head?, ¬ isWord c = true :=
      forall_head?_append proper fun c here => by simp [(outside c here).1]
    obtain ⟨-, dots⟩ := append_inj_of_stop owner.2 part'.2 (by simp [dot]) stop split
    obtain ⟨e, t, rfl⟩ := List.exists_cons_of_ne_nil proper
    obtain ⟨rfl, -⟩ := List.cons.inj dots
    exact (outside _ List.mem_cons_self).2 rfl
  | cons e between =>
    obtain ⟨-, inner⟩ := List.cons.inj behind
    obtain ⟨_, rfl⟩ := split_of_not_mem_left (missing part') inner.symm
    obtain ⟨f, beyond, rfl⟩ := List.exists_cons_of_ne_nil reaches
    obtain ⟨g, n, rfl⟩ := List.exists_cons_of_ne_nil owner.1
    obtain ⟨rfl, -⟩ := List.cons.inj split
    have word := owner.2 _ List.mem_cons_self
    simp [(outside g (by simp)).1] at word

/-- Wherever the access fits, it keeps the owner. -/
theorem mem_kept (owner : IsRun isWord n)
    (fits : a.pattern.occurrence? (n ++ '.' :: rest) = some o) :
  n ∈ o.kept
  := by
  obtain ⟨_, rest', split, -, covers⟩ := Text.Pattern.covers_of_occurrence? fits
  obtain ⟨n', m', t', keptTail, rfl, listed, owner', -, -⟩ := of_covers_pattern covers
  have dot := (Text.isWord_isBlank_of_sign '.' (by simp)).1
  rw [List.append_assoc] at split
  obtain ⟨rfl, -⟩ := append_inj_of_stop owner.2 owner'.2 (by simp [dot]) (by simp [dot]) split
  apply listed

theorem mem_candidates (ha : a.pattern ∈ patterns)
    (start : ∀ c ∈ before.getLast?, isWord c = false) (owner : IsRun isWord x.toList)
    (part : IsRun isWord m) (tail : Covers a.tail t kept)
    (split : stripComments text.toList = before ++ (x.toList ++ '.' :: (m ++ t) ++ after)) :
  x ∈ candidates text
  := by
  apply mem_candidates_of_apart ha split _ (covers_pattern owner part tail) _ _ owner.1
  · intro c here
    apply plain_of_word (Or.inl (owner.2 c here))
  · simp
  · rw [List.append_assoc]
    apply apart start owner
  · intro o fits
    rw [List.append_assoc] at fits
    apply mem_kept owner fits

end Access

/-- A call of a member. -/
def Access.call : Access where
  tail := [blanks, word "("]
  ends := by
    intro t kept h
    obtain ⟨blank, rfl, blanks⟩ := of_covers_blanks_paren h
    refine ⟨by simp, ?_⟩
    intro c here
    obtain inner | last := List.mem_append.mp here
    · apply outside_of_isBlank (blanks c inner)
    · rw [List.mem_singleton.mp last]
      exact ⟨(Text.isWord_isBlank_of_sign '(' (by simp)).1, by decide⟩

theorem isBoundary_iff :
  isBoundary c = true ↔ isBlank c = true ∨ c ∈ [';', ')', ',', ']', '[']
  := by
  simp [isBoundary]

theorem of_covers_boundary (h : Covers [.one isBoundary] t kept) :
  ∃ c, t = [c] ∧ isBoundary c = true
  := by
  cases h with
  | cons first h =>
    cases first with
    | @one _ c accepted =>
      cases h
      exact ⟨c, rfl, accepted⟩

/-- A member that is read. -/
def Access.reading : Access where
  tail := [.one isBoundary]
  ends := by
    intro t kept h
    obtain ⟨c, rfl, boundary⟩ := of_covers_boundary h
    rw [List.forall_mem_singleton]
    refine ⟨by simp, ?_⟩
    obtain blank | sign := isBoundary_iff.mp boundary
    · apply outside_of_isBlank blank
    · have listed : c ∈ ['@', '(', ')', ';', ',', '.', '[', ']'] := by
        simp only [List.mem_cons] at sign ⊢
        tauto
      refine ⟨(Text.isWord_isBlank_of_sign c listed).1, ?_⟩
      rintro rfl
      simp at sign

/-! ### Annotations -/

theorem of_covers_annotation (h : Covers [word "@", name] covered kept) :
  ∃ n, covered = '@' :: n ∧ IsRun isWord n
  := by
  cases h with
  | cons first h =>
    cases first
    cases h with
    | @cons _ _ n _ _ _ second h =>
      cases h
      refine ⟨n, ?_, second.isRun⟩
      rw [List.append_nil]
      rfl

theorem annotation_apart :
  Apart [word "@", name] before ('@' :: rest)
  := by
  intro right beyond rest' kept _ started reaches split covers
  obtain ⟨d, beyond, rfl⟩ := List.exists_cons_of_ne_nil reaches
  obtain ⟨rfl, -⟩ := List.cons.inj split
  obtain ⟨e, right, rfl⟩ := List.exists_cons_of_ne_nil started
  obtain ⟨n, covered, words⟩ := of_covers_annotation covers
  obtain ⟨-, rfl⟩ := List.cons.inj covered
  have word := words.2 '@' (by simp)
  simp [Text.isWord_isBlank_of_sign '@' (by simp)] at word

/-- The name of an annotation is as long as it can be, since nothing has to fit behind it. -/
theorem annotation_mem_kept (words : IsRun isWord n) (stop : ∀ c ∈ after.head?, isWord c = false)
    (fits : Pattern.occurrence? [word "@", name] ('@' :: n ++ after) = some o) :
  n ∈ o.kept
  := by
  have whole : (n ++ after).takeWhile isWord = n := takeWhile_append_of_stop words.2 stop
  have long : 1 ≤ n.length := List.length_pos_of_ne_nil words.1
  have last : Pattern.occurrence? [name] (n ++ after) = some ⟨[n], n.length⟩ := by
    rw [name, Pattern.occurrence?_longest, whole, if_pos long, if_pos rfl]
  have both : Pattern.occurrence? [word "@", name] ('@' :: n ++ after)
      = (Pattern.occurrence? [name] (n ++ after)).map (Occurrence.after 1) := rfl
  rw [both, last] at fits
  obtain rfl := Option.some.inj fits
  apply List.mem_singleton_self

theorem annotation_mem_candidates (words : IsRun isWord x.toList)
    (stop : ∀ c ∈ after.head?, isWord c = false)
    (split : stripComments text.toList = before ++ ('@' :: x.toList ++ after)) :
  x ∈ candidates text
  := by
  have listed : [word "@", name] ∈ patterns := List.mem_of_getElem? (i := 6) rfl
  have first : (word "@").Covers ['@'] [] := .text
  have second : name.Covers x.toList [x.toList] :=
    .keep (List.length_pos_of_ne_nil words.1) words.2
  have covers := Covers.cons first (.cons second .nil)
  rw [List.append_nil, List.singleton_append] at covers
  apply mem_candidates_of_apart listed split _ covers annotation_apart _ words.1
  · intro c here
    apply plain_of_word (Or.inl (words.2 c here))
  · simp
  · intro o fits
    apply annotation_mem_kept words stop fits

/-! ### Mentions -/

/-- Where a name is mentioned in a text without comments. -/
inductive Mention (cs : List Char) : List Char → Prop where
  /-- The word behind an at sign. -/
  | annotation {before n after : List Char} (split : cs = before ++ '@' :: n ++ after)
      (words : IsRun isWord n) (stop : ∀ c ∈ after.head?, isWord c = false) :
    Mention cs n
  /-- The word between `new` and an opening bracket. -/
  | creation {before gap n blank after : List Char}
      (split : cs = before ++ "new".toList ++ gap ++ n ++ blank ++ '(' :: after)
      (gaps : IsRun isBlank gap) (words : IsRun isWord n) (blanks : ∀ c ∈ blank, isBlank c = true) :
    Mention cs n
  /-- The dotted name between `import` and a semicolon. -/
  | importing {before gap n after : List Char}
      (split : cs = before ++ "import".toList ++ gap ++ n ++ ';' :: after)
      (gaps : IsRun isBlank gap) (proper : n ≠ []) (words : ∀ c ∈ n, isWord c = true ∨ c = '.') :
    Mention cs n
  /-- The whole word before a member that is called. -/
  | call {before n m blank after : List Char}
      (split : cs = before ++ n ++ '.' :: m ++ blank ++ '(' :: after)
      (start : ∀ c ∈ before.getLast?, isWord c = false) (words : IsRun isWord n)
      (part : IsRun isWord m) (blanks : ∀ c ∈ blank, isBlank c = true) :
    Mention cs n
  /-- The whole word before a member that ends at a blank or a sign. -/
  | reading {before n m : List Char} {c : Char} {after : List Char}
      (split : cs = before ++ n ++ '.' :: m ++ c :: after)
      (start : ∀ c ∈ before.getLast?, isWord c = false) (words : IsRun isWord n)
      (part : IsRun isWord m) (boundary : isBlank c = true ∨ c ∈ [';', ')', ',', ']', '[']) :
    Mention cs n

/-- A name that is mentioned in what is left of a text without comments is a candidate, whatever the
search has found before it. It is a reference if the filter accepts it. -/
theorem mentions_are_candidates (text x : String)
    (h : Mention (stripComments text.toList) x.toList) :
  x ∈ candidates text ∧ ∀ f : ReferenceFilter, f.accepts x = true → x ∈ f.references text
  := by
  have candidate : x ∈ candidates text := by
    cases h with
    | annotation split words stop =>
      apply annotation_mem_candidates words stop
      simpa using split
    | creation split gaps words blanks =>
      have listed : Clause.creation.pattern ∈ patterns := List.mem_of_getElem? (i := 4) rfl
      apply Clause.mem_candidates listed gaps words (covers_blanks_paren blanks)
      simpa [Clause.keyword, Clause.creation] using split
    | importing split gaps proper words =>
      have listed : Clause.importing.pattern ∈ patterns := List.mem_of_getElem? (i := 7) rfl
      have name : IsRun Clause.importing.accepts x.toList :=
        ⟨proper, fun c here => by simpa [Clause.importing] using words c here⟩
      have semicolon : Covers Clause.importing.tail [';'] [] := .cons .text .nil
      apply Clause.mem_candidates listed gaps name semicolon
      simpa [Clause.keyword, Clause.importing] using split
    | call split start words part blanks =>
      have listed : Access.call.pattern ∈ patterns := List.mem_of_getElem? (i := 8) rfl
      apply Access.mem_candidates listed start words part (covers_blanks_paren blanks)
      simpa using split
    | @reading _ _ _ c _ split start words part boundary =>
      have listed : Access.reading.pattern ∈ patterns := List.mem_of_getElem? (i := 9) rfl
      have ends : Covers Access.reading.tail [c] [] :=
        .cons (.one (isBoundary_iff.mpr boundary)) .nil
      apply Access.mem_candidates listed start words part ends
      simpa using split
  refine ⟨candidate, ?_⟩
  intro f accepted
  exact ReferenceFilter.mem_references.mpr ⟨candidate, accepted⟩

/-- The first `new` could take the second one for its name. -/
theorem mentions_are_candidates_behind_keyword :
  let text := "new /* or */ new Item (x)"
  Mention (stripComments text.toList) "Item".toList
    ∧ ReferenceFilter.standard.accepts "Item" = true
    ∧ "Item" ∈ candidates text ∧ "Item" ∈ ReferenceFilter.standard.references text
  := by
  intro text
  have split : stripComments text.toList
      = "new  ".toList ++ "new".toList ++ [' '] ++ "Item".toList ++ [' '] ++ '(' :: ['x', ')'] := by
    decide +kernel
  have gaps : IsRun isBlank [' '] := ⟨by decide, List.all_eq_true.mp (by decide +kernel)⟩
  have words : IsRun isWord "Item".toList := ⟨by decide, List.all_eq_true.mp (by decide)⟩
  have mention : Mention (stripComments text.toList) "Item".toList :=
    .creation split gaps words gaps.2
  have accepted : ReferenceFilter.standard.accepts "Item" = true := by decide +kernel
  obtain ⟨candidate, reference⟩ := mentions_are_candidates text "Item" mention
  exact ⟨mention, accepted, candidate, reference _ accepted⟩

end References

end SourceAtlas
