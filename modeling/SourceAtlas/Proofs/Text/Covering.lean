import SourceAtlas.Proofs.Text.Removal

/-!
# What a pattern covers

A pattern covers a text if the text is made of stretches that its pieces accept, one after the other
(`Pattern.Covers`). How the runs share the characters between them is left open here. The matcher
finds a pattern at the start of a text exactly if the pattern covers some beginning of it
(`covers_of_occurrence?`, `Covers.occurrence?_ne_none`), and the runs it keeps are then those of
such a covering. The search goes from left to right and never looks inside an occurrence. So an
occurrence is found if no covering that starts before it reaches into it
(`mem_occurrences_of_apart`).
-/

namespace SourceAtlas.Text

/-! ### Pieces -/

/-- At least one character, and all of the class. -/
def IsRun (accepts : Char → Bool) (run : List Char) : Prop :=
  run ≠ [] ∧ ∀ c ∈ run, accepts c = true

namespace Piece

variable {piece : Piece} {next : Matcher} {accepts : Char → Bool} {least : Nat}
  {cs run rest covered : List Char} {kept : List (List Char)} {o : Occurrence}

/-- The piece accepts the stretch of text and keeps the given runs of it. -/
inductive Covers : Piece → List Char → List (List Char) → Prop where
  | text {chars : List Char} : Covers (.text chars) chars []
  | one {accepts : Char → Bool} {c : Char} (accepted : accepts c = true) :
    Covers (.one accepts) [c] []
  | pass {least : Nat} {accepts : Char → Bool} {run : List Char} (long : least ≤ run.length)
      (accepted : ∀ c ∈ run, accepts c = true) :
    Covers (.longest false least accepts) run []
  | keep {least : Nat} {accepts : Char → Bool} {run : List Char} (long : least ≤ run.length)
      (accepted : ∀ c ∈ run, accepts c = true) :
    Covers (.longest true least accepts) run [run]
  | skip {run : List Char} : Covers .shortest run []

theorem Covers.isRun {keeps : Bool} (h : Covers (.longest keeps 1 accepts) run kept) :
  IsRun accepts run
  := by
  cases h with
  | pass long accepted => exact ⟨List.ne_nil_of_length_pos long, accepted⟩
  | keep long accepted => exact ⟨List.ne_nil_of_length_pos long, accepted⟩

theorem longestRun_eq_some (h : longestRun accepts next least cs = some (run, o)) :
  ∃ rest, cs = run ++ rest ∧ least ≤ run.length ∧ (∀ c ∈ run, accepts c = true)
    ∧ next rest = some o
  := by
  induction cs generalizing least run with
  | nil =>
    rw [longestRun] at h
    split at h
    · rename_i zero
      obtain ⟨_, found, ⟨⟩⟩ := Option.map_eq_some_iff.mp h
      exact ⟨[], rfl, by simp [zero], by simp, found⟩
    · cases h
  | cons c cs ih =>
    rw [longestRun, Option.orElse_eq_orElse, Option.orElse_eq_or, Option.or_eq_some_iff] at h
    obtain longer | ⟨-, none⟩ := h
    · split at longer
      · rename_i first
        obtain ⟨⟨run, _⟩, found, ⟨⟩⟩ := Option.map_eq_some_iff.mp longer
        obtain ⟨rest, rfl, long, accepted, fits⟩ := ih found
        refine ⟨rest, rfl, ?_, ?_, fits⟩
        · rw [List.length_cons]
          omega
        · rw [List.forall_mem_cons]
          exact ⟨first, accepted⟩
      · cases longer
    · split at none
      · rename_i zero
        obtain ⟨_, fits, ⟨⟩⟩ := Option.map_eq_some_iff.mp none
        exact ⟨c :: cs, rfl, by simp [zero], by simp, fits⟩
      · cases none

theorem longestRun_ne_none (long : least ≤ run.length) (accepted : ∀ c ∈ run, accepts c = true)
    (fits : next rest ≠ none) :
  longestRun accepts next least (run ++ rest) ≠ none
  := by
  induction run generalizing least with
  | nil =>
    obtain rfl : least = 0 := by simpa using long
    cases rest with
    | nil => simpa [longestRun] using fits
    | cons c rest => simp [longestRun, fits]
  | cons c run ih =>
    obtain ⟨first, accepted⟩ := List.forall_mem_cons.mp accepted
    have shorter : longestRun accepts next (least - 1) (run ++ rest) ≠ none := by
      apply ih _ accepted
      rw [List.length_cons] at long
      omega
    simp [longestRun, first, shorter]

/-- With nothing behind it, a run takes all characters that it accepts. -/
theorem longestRun_last (least : Nat) (cs : List Char) :
  longestRun accepts (Pattern.occurrence? []) least cs
    = if least ≤ (cs.takeWhile accepts).length then some (cs.takeWhile accepts, ⟨[], 0⟩) else none
  := by
  induction cs generalizing least with
  | nil => simp [longestRun, Pattern.occurrence?]
  | cons c cs ih =>
    rw [longestRun, ih]
    by_cases accepted : accepts c = true
    · by_cases long : least ≤ (cs.takeWhile accepts).length + 1
      · have shorter : least - 1 ≤ (cs.takeWhile accepts).length := by omega
        simp [accepted, long, shorter]
      · have shorter : ¬ least - 1 ≤ (cs.takeWhile accepts).length := by omega
        have positive : least ≠ 0 := by omega
        simp [accepted, long, shorter, positive]
    · simp [accepted, Pattern.occurrence?]

theorem shortestRun_eq_some (h : shortestRun next cs = some o) :
  ∃ run rest o', cs = run ++ rest ∧ next rest = some o' ∧ o = o'.after run.length
  := by
  induction cs generalizing o with
  | nil => exact ⟨[], [], o, rfl, h, by simp [Occurrence.after]⟩
  | cons c cs ih =>
    rw [shortestRun, Option.orElse_eq_orElse, Option.orElse_eq_or, Option.or_eq_some_iff] at h
    obtain here | ⟨-, later⟩ := h
    · exact ⟨[], c :: cs, o, rfl, here, by simp [Occurrence.after]⟩
    · obtain ⟨_, found, rfl⟩ := Option.map_eq_some_iff.mp later
      obtain ⟨run, rest, o', rfl, fits, rfl⟩ := ih found
      refine ⟨c :: run, rest, o', rfl, fits, ?_⟩
      simp only [Occurrence.after, List.length_cons, Occurrence.mk.injEq, true_and]
      omega

theorem shortestRun_ne_none (fits : next rest ≠ none) :
  shortestRun next (run ++ rest) ≠ none
  := by
  induction run with
  | nil =>
    cases rest with
    | nil => apply fits
    | cons c rest => simp [shortestRun, fits]
  | cons c run ih => simp [shortestRun, ih]

/-- Where the piece fits, it covers a stretch, and the rest of the pattern fits behind it. -/
theorem covers_of_before (h : piece.before next cs = some o) :
  ∃ covered kept rest o', cs = covered ++ rest ∧ piece.Covers covered kept
    ∧ next rest = some o' ∧ o = ⟨kept ++ o'.kept, covered.length + o'.length⟩
  := by
  cases piece with
  | text chars =>
    rw [before] at h
    split at h
    · rename_i starts
      obtain ⟨rest, rfl⟩ := List.isPrefixOf_iff_prefix.mp starts
      rw [List.drop_left] at h
      obtain ⟨o', fits, rfl⟩ := Option.map_eq_some_iff.mp h
      exact ⟨chars, [], rest, o', rfl, .text, fits, rfl⟩
    · cases h
  | one accepts =>
    cases cs with
    | nil => cases h
    | cons c cs =>
      rw [before] at h
      split at h
      · rename_i accepted
        obtain ⟨o', fits, rfl⟩ := Option.map_eq_some_iff.mp h
        exact ⟨[c], [], cs, o', rfl, .one accepted, fits, rfl⟩
      · cases h
  | longest keeps least accepts =>
    rw [before] at h
    obtain ⟨⟨run, o'⟩, found, rfl⟩ := Option.map_eq_some_iff.mp h
    obtain ⟨rest, rfl, long, accepted, fits⟩ := longestRun_eq_some found
    cases keeps with
    | true => exact ⟨run, [run], rest, o', rfl, .keep long accepted, fits, rfl⟩
    | false => exact ⟨run, [], rest, o', rfl, .pass long accepted, fits, rfl⟩
  | shortest =>
    obtain ⟨run, rest, o', rfl, fits, rfl⟩ := shortestRun_eq_some h
    exact ⟨run, [], rest, o', rfl, .skip, fits, rfl⟩

theorem Covers.before_ne_none (h : piece.Covers covered kept) (fits : next rest ≠ none) :
  piece.before next (covered ++ rest) ≠ none
  := by
  cases h with
  | text => simp [before, fits]
  | one accepted => simp [before, accepted, fits]
  | pass long accepted => simp [before, longestRun_ne_none long accepted fits]
  | keep long accepted => simp [before, longestRun_ne_none long accepted fits]
  | skip => apply shortestRun_ne_none fits

end Piece

namespace Pattern

variable {p q : Pattern} {cs covered rest before run : List Char} {kept : List (List Char)}
  {o : Occurrence}

/-! ### Patterns -/

/-- The pieces of the pattern cover the text one after the other and keep the given runs. -/
inductive Covers : Pattern → List Char → List (List Char) → Prop where
  | nil : Covers [] [] []
  | cons {piece : Piece} {p : Pattern} {a b : List Char} {ka kb : List (List Char)}
      (first : piece.Covers a ka) (others : Covers p b kb) :
    Covers (piece :: p) (a ++ b) (ka ++ kb)

/-- A covering by two patterns in a row is cut between them. -/
theorem Covers.split (h : Covers (p ++ q) cs kept) :
  ∃ a b ka kb, cs = a ++ b ∧ Covers p a ka ∧ Covers q b kb
  := by
  induction p generalizing cs kept with
  | nil => exact ⟨[], cs, [], kept, rfl, .nil, h⟩
  | cons piece p ih =>
    cases h with
    | cons first others =>
      obtain ⟨a, b, ka, kb, rfl, left, right⟩ := ih others
      exact ⟨_, b, _, kb, (List.append_assoc _ a b).symm, .cons first left, right⟩

/-- Every kept run is that of some piece. -/
theorem Covers.exists_piece (h : Covers p cs kept) (listed : run ∈ kept) :
  ∃ left least accepts right, p = left ++ .longest true least accepts :: right
    ∧ ∃ a b ka kb, cs = a ++ run ++ b ∧ Covers left a ka ∧ Covers right b kb
      ∧ least ≤ run.length ∧ ∀ c ∈ run, accepts c = true
  := by
  induction h with
  | nil => cases listed
  | cons first others ih =>
    obtain here | later := List.mem_append.mp listed
    · cases first with
      | keep long accepted =>
        obtain rfl := List.mem_singleton.mp here
        exact ⟨[], _, _, _, rfl, [], _, [], _, rfl, .nil, others, long, accepted⟩
      | _ => cases here
    · obtain ⟨left, least, accepts, right, rfl, a, b, ka, kb, rfl, front, back⟩ := ih later
      refine ⟨_ :: left, least, accepts, right, rfl, _, b, _, kb, ?_, .cons first front, back⟩
      simp

/-- Where the pattern fits, it covers what the matcher says. -/
theorem covers_of_occurrence? (h : p.occurrence? cs = some o) :
  ∃ covered rest, cs = covered ++ rest ∧ covered.length = o.length ∧ Covers p covered o.kept
  := by
  induction p generalizing cs o with
  | nil =>
    obtain rfl := Option.some.inj h
    exact ⟨[], cs, rfl, rfl, .nil⟩
  | cons piece p ih =>
    obtain ⟨a, ka, _, o', rfl, first, fits, rfl⟩ := Piece.covers_of_before h
    obtain ⟨b, rest, rfl, length, others⟩ := ih fits
    refine ⟨a ++ b, rest, (List.append_assoc a b rest).symm, ?_, .cons first others⟩
    rw [List.length_append, length]

/-- What the pattern covers at the start of a text is not missed. -/
theorem Covers.occurrence?_ne_none (h : Covers p covered kept) :
  p.occurrence? (covered ++ rest) ≠ none
  := by
  induction h with
  | nil => apply occurrence?_nil_ne_none
  | cons first others ih =>
    rw [List.append_assoc]
    apply first.before_ne_none ih

/-- A pattern that is a single run takes all characters that the run accepts. -/
theorem occurrence?_longest (keeps : Bool) (least : Nat) (accepts : Char → Bool)
    (cs : List Char) :
  occurrence? [.longest keeps least accepts] cs
    = if least ≤ (cs.takeWhile accepts).length then
        some ⟨if keeps then [cs.takeWhile accepts] else [], (cs.takeWhile accepts).length⟩
      else none
  := by
  rw [occurrence?, Piece.before, Piece.longestRun_last]
  split
  · rfl
  · rfl

/-! ### The search -/

theorem exists_of_mem_occurrencesFrom {skip : Nat} (h : o ∈ p.occurrencesFrom skip cs) :
  ∃ s, s <:+ cs ∧ p.occurrence? s = some o
  := by
  fun_induction occurrencesFrom p skip cs with
  | case1 skip => cases h
  | case2 skip c cs ih =>
    obtain ⟨s, suffix, fits⟩ := ih h
    exact ⟨s, suffix.trans (List.suffix_cons c cs), fits⟩
  | case3 c cs first fits ih =>
    obtain rfl | later := List.mem_cons.mp h
    · exact ⟨c :: cs, List.suffix_rfl, fits⟩
    · obtain ⟨s, suffix, fits⟩ := ih later
      exact ⟨s, suffix.trans (List.suffix_cons c cs), fits⟩
  | case4 c cs unfit ih =>
    obtain ⟨s, suffix, fits⟩ := ih h
    exact ⟨s, suffix.trans (List.suffix_cons c cs), fits⟩

/-- Every occurrence that is found covers some part of the text. -/
theorem covers_of_mem_occurrences (h : o ∈ p.occurrences cs) :
  ∃ before covered rest, cs = before ++ covered ++ rest ∧ Covers p covered o.kept
  := by
  obtain ⟨_, ⟨before, rfl⟩, fits⟩ := exists_of_mem_occurrencesFrom h
  obtain ⟨covered, rest, rfl, -, covers⟩ := covers_of_occurrence? fits
  exact ⟨before, covered, rest, (List.append_assoc before covered rest).symm, covers⟩

/-- No covering that starts in the first text reaches into the second one. -/
def Apart (p : Pattern) (before cs : List Char) : Prop :=
  ∀ right beyond rest kept, right <:+ before → right ≠ [] → beyond ≠ [] → cs = beyond ++ rest →
    ¬ Covers p (right ++ beyond) kept

theorem Apart.length_le (h : Apart p before cs) (proper : before ≠ [])
    (fits : p.occurrence? (before ++ cs) = some o) :
  o.length ≤ before.length
  := by
  obtain ⟨covered, rest, split, length, covers⟩ := covers_of_occurrence? fits
  obtain ⟨beyond, rfl, later⟩ | ⟨short, rfl, -⟩ := List.append_eq_append_iff.mp split
  · by_cases inside : beyond = []
    · rw [← length, inside, List.append_nil]
    · exact absurd covers (h before beyond rest o.kept List.suffix_rfl proper inside later)
  · rw [← length, List.length_append]
    omega

theorem Apart.of_cons {c : Char} (h : Apart p (c :: before) cs) :
  Apart p before cs
  := by
  intro right beyond rest kept suffix
  apply h right beyond rest kept (suffix.trans (List.suffix_cons c before))

theorem mem_occurrencesFrom_of_apart {skip : Nat} (proper : cs ≠ [])
    (fits : p.occurrence? cs = some o) (apart : Apart p before cs) (short : skip ≤ before.length) :
  o ∈ p.occurrencesFrom skip (before ++ cs)
  := by
  induction before generalizing skip with
  | nil =>
    obtain rfl : skip = 0 := by simpa using short
    obtain ⟨c, cs, rfl⟩ := List.exists_cons_of_ne_nil proper
    simp [occurrencesFrom, fits]
  | cons c before ih =>
    cases skip with
    | succ skip =>
      apply ih apart.of_cons
      simpa using short
    | zero =>
      rw [List.cons_append, occurrencesFrom]
      split
      · rename_i earlier found
        apply List.mem_cons_of_mem
        apply ih apart.of_cons
        have ends := apart.length_le (List.cons_ne_nil c before) found
        rw [List.length_cons] at ends
        omega
      · apply ih apart.of_cons (Nat.zero_le _)

/-- An occurrence is found if no covering that starts before it reaches into it. -/
theorem mem_occurrences_of_apart (proper : cs ≠ []) (fits : p.occurrence? cs = some o)
    (apart : Apart p before cs) :
  o ∈ p.occurrences (before ++ cs)
  := mem_occurrencesFrom_of_apart proper fits apart (Nat.zero_le _)

end Pattern

end SourceAtlas.Text
