import Mathlib.Data.List.Perm.Basic
import Mathlib.Data.List.TakeDrop
import SourceAtlas.Proofs.Parsing.Derivation

/-!
# What states hold

The items of a state tell what was read before it. An item behind a symbol was an item before the
symbol, or its production begins with the symbol and its rule may begin (`mem_itemsBehind`). A rule
may begin only if an item asks for it or a rule that may begin begins with it
(`upcomingOf_eq_zero`), so the rule of the whole text never begins inside a text, and the end of a
text is never read as a token.

What is done on a token is read off the items: a production is ended if an item is complete and the
token may follow it, and the text is accepted if that production is the one of the whole text.

States are kept under numbers, and moves between them lead from a state to the state with the items
behind the symbol (`Automaton.Lawful`).
-/

namespace SourceAtlas.Parsing

/-! ### Sets of tokens -/

namespace TokenSet

@[simp]
theorem has_union (a b : TokenSet) (t : Nat) :
  (a.union b).has t = (a.has t || b.has t)
  := by
  simp [has, union]

@[simp]
theorem has_single (s t : Nat) :
  (single s).has t = decide (t = s)
  := by
  rw [has, single, Nat.testBit_shiftLeft, Bool.eq_iff_iff]
  simp only [Bool.and_eq_true, decide_eq_true_eq, Nat.testBit_one_eq_true_iff_self_eq_zero]
  omega

@[simp]
theorem not_has_zero (t : Nat) :
  has 0 t = false
  := Nat.zero_testBit t

theorem isInhabited_iff {s : TokenSet} :
  s.isInhabited = true ↔ s ≠ 0
  := by
  simp [isInhabited]

/-- What is collected in a set is there at first or comes with one of the members of a list. -/
theorem has_foldl {α : Type} {t : Nat} (collect : TokenSet → α → TokenSet) (P : α → Prop)
    (step : ∀ set x, (collect set x).has t = true ↔ set.has t = true ∨ P x) (xs : List α)
    (set : TokenSet) :
  (xs.foldl collect set).has t = true ↔ set.has t = true ∨ ∃ x ∈ xs, P x
  := by
  induction xs generalizing set with
  | nil => simp
  | cons x xs ih => simp [ih, step, or_assoc]

end TokenSet

variable {τ ν : Type} {g : Grammar τ ν}

/-- What a grammar keeps about its productions is true of them. The production of the whole text is
for a rule that no production asks for, and no production asks for the end of the text. -/
structure Grammar.Indexed (g : Grammar τ ν) : Prop where
  startingWith : ∀ {symbol n}, n ∈ g.startingWith symbol →
    (g.productions[n]?).bind (·.symbols[0]?) = some symbol
  leads : ∀ {r lead}, lead ∈ g.leads.getD r [] →
    ∃ p ∈ g.productions, .rule lead.rule ∈ p.symbols
  openings : ∀ {r t}, (g.openings.getD r 0).has t = true → ∃ p ∈ g.productions, .token t ∈ p.symbols
  whole : ∃ w, g.productions[g.wholeProduction]? = some w ∧ w.symbols = #[.rule 0]
    ∧ ∀ p ∈ g.productions, .rule w.rule ∉ p.symbols
  finish : ∀ p ∈ g.productions, .token 0 ∉ p.symbols

/-! ### Items -/

namespace Item

variable {i : Item}

theorem mergeSorted_perm (as bs : List Item) :
  (mergeSorted as bs).Perm (as ++ bs)
  := by
  induction as generalizing bs with
  | nil => apply List.Perm.refl
  | cons a as ih =>
    rw [mergeSorted, List.span_eq_takeWhile_dropWhile]
    have split := List.takeWhile_append_dropWhile (p := fun b => !a.isBefore b) (l := bs)
    apply List.perm_middle.trans
    apply List.Perm.cons
    apply ((ih _).append_left _).trans
    conv_rhs => rw [List.append_eq, ← split]
    rw [← List.append_assoc, ← List.append_assoc]
    apply List.perm_append_comm.append_right

theorem next?_eq_some_iff {symbol : Symbol} :
  i.next? g = some symbol
    ↔ ∃ p, g.productions[i.production]? = some p ∧ p.symbols[i.place]? = some symbol
  := Option.bind_eq_some_iff

/-- What an item asks for occurs in a production. -/
theorem exists_mem_of_next? {symbol : Symbol} (h : i.next? g = some symbol) :
  ∃ p ∈ g.productions, symbol ∈ p.symbols
  := by
  obtain ⟨p, hp, hs⟩ := next?_eq_some_iff.mp h
  exact ⟨p, Array.mem_of_getElem? hp, Array.mem_of_getElem? hs⟩

end Item

/-- At the start of a text the first rule is asked for. -/
theorem Grammar.next?_startItem (hg : g.Indexed) :
  g.startItem.next? g = some (.rule 0)
  := by
  obtain ⟨w, hw, symbols, _⟩ := hg.whole
  exact Item.next?_eq_some_iff.mpr ⟨w, hw, by rw [symbols]; rfl⟩

/-- The whole text is followed by its end. -/
theorem Grammar.behindNext_startItem (hg : g.Indexed) :
  g.startItem.behindNext g = TokenSet.single 0
  := by
  obtain ⟨w, hw, symbols, _⟩ := hg.whole
  have last : (g.startItem.production? g).bind (·.symbols[g.startItem.place + 1]?) = none := by
    have production : g.startItem.production? g = some w := hw
    rw [production, Option.bind_some, symbols]
    rfl
  rw [Item.behindNext, last]
  rfl

/-! ### What may begin -/

namespace Outlook

variable {R T : Nat → Prop} {o : Outlook}

/-- Only the given rules may begin and only they are still to be looked at, and only the given tokens
follow them. -/
structure Within (R T : Nat → Prop) (o : Outlook) : Prop where
  has : ∀ r t, (o.upcoming.getD r 0).has t = true → R r ∧ T t
  work : ∀ r ∈ o.work, R r

theorem Within.expect (h : Within R T o) {rule : Nat} (hr : R rule) {tokens : TokenSet}
    (ht : ∀ t, tokens.has t = true → T t) :
  Within R T (o.expect rule tokens)
  := by
  unfold Outlook.expect
  generalize before : o.upcoming.getD rule 0 = known
  simp only
  split
  · apply h
  · constructor
    · intro r t hrt
      rw [Array.getD_eq_getD_getElem?, Array.getElem?_setIfInBounds] at hrt
      split at hrt
      · next same =>
        subst same
        split at hrt
        · rw [Option.getD_some, TokenSet.has_union, Bool.or_eq_true] at hrt
          obtain old | new := hrt
          · exact h.has _ t (before ▸ old)
          · exact ⟨hr, ht t new⟩
        · rw [Option.getD_none, TokenSet.not_has_zero] at hrt
          contradiction
      · rw [← Array.getD_eq_getD_getElem?] at hrt
        exact h.has r t hrt
    · simpa [hr] using h.work

theorem Within.expectAll (h : Within R T o) {wants : List (Nat × TokenSet)}
    (hw : ∀ want ∈ wants, R want.1 ∧ ∀ t, want.2.has t = true → T t) :
  Within R T (o.expectAll wants)
  := by
  induction wants generalizing o with
  | nil => apply h
  | cons want wants ih =>
    obtain ⟨first, others⟩ := List.forall_mem_cons.mp hw
    apply ih (h.expect first.1 first.2) others

/-- The rules lead only to one another, and only to the given tokens behind the leads. -/
structure Leading (g : Grammar τ ν) (R T : Nat → Prop) : Prop where
  rule : ∀ r, R r → ∀ lead ∈ g.leads.getD r [], R lead.rule
  behind : ∀ r, R r → ∀ lead ∈ g.leads.getD r [], ∀ t, lead.behind.has t = true → T t
  forced : ∀ r, R r → ∀ t, (g.forced.getD r 0).has t = true → T t

theorem Within.spread (closed : Leading g R T) (h : Within R T o) (fuel : Nat) {r t : Nat}
    (hr : ((spread g fuel o).getD r 0).has t = true) :
  R r ∧ T t
  := by
  induction fuel generalizing o with
  | zero => apply h.has r t hr
  | succ fuel ih =>
    obtain ⟨upcoming, work⟩ := o
    cases work with
    | nil => apply h.has r t hr
    | cons rule work =>
      obtain ⟨first, others⟩ := List.forall_mem_cons.mp h.work
      have rest : Within R T ⟨upcoming, work⟩ := ⟨h.has, others⟩
      refine ih (rest.expectAll ?_) hr
      intro want hw
      obtain ⟨lead, hl, rfl⟩ := List.mem_map.mp hw
      refine ⟨closed.rule rule first lead hl, ?_⟩
      intro t ht
      rw [wantOf, TokenSet.has_union, Bool.or_eq_true] at ht
      obtain ht | forced := ht
      · split at ht
        · rw [TokenSet.has_union, Bool.or_eq_true] at ht
          obtain behind | follow := ht
          · exact closed.behind rule first lead hl t behind
          · exact (h.has rule t follow).2
        · exact closed.behind rule first lead hl t ht
      · exact closed.forced _ (closed.rule rule first lead hl) t forced

end Outlook

namespace State

variable {R T : Nat → Prop} {items : List Item} {s : State} {i : Item} {t : Nat}

/-- Rules and tokens to which the items and the rules lead are all that may begin and follow. -/
theorem of_has_upcomingOf
    (begun : ∀ i ∈ items, ∀ want, Outlook.wantOf? g i = some want →
      R want.1 ∧ ∀ t, want.2.has t = true → T t)
    (closed : Outlook.Leading g R T) {r : Nat} (h : ((upcomingOf g items).getD r 0).has t = true) :
  R r ∧ T t
  := by
  apply Outlook.Within.spread closed _ _ h
  apply Outlook.Within.expectAll
  · constructor
    · intro r t ht
      rw [Array.getD_eq_getD_getElem?, Array.getElem?_replicate] at ht
      split at ht <;> simp at ht
    · simp
  · intro want hw
    obtain ⟨i, hi, h⟩ := List.mem_filterMap.mp hw
    exact begun i hi want h

/-- Rules to which the items and the rules lead are all that may begin. -/
theorem upcomingOf_eq_zero (begun : ∀ i ∈ items, ∀ r, i.next? g = some (.rule r) → R r)
    (closed : ∀ r, R r → ∀ lead ∈ g.leads.getD r [], R lead.rule) {r : Nat} (hr : ¬ R r) :
  (upcomingOf g items).getD r 0 = 0
  := by
  apply Nat.eq_of_testBit_eq
  intro t
  rw [Nat.zero_testBit]
  by_contra has
  have leading : Outlook.Leading g R fun _ => True := ⟨closed, by simp, by simp⟩
  apply hr
  refine (of_has_upcomingOf ?_ leading (eq_true_of_ne_false has)).1
  intro i hi want h
  unfold Outlook.wantOf? at h
  split at h
  · next r next =>
    obtain rfl := Option.some.inj h
    exact ⟨begun i hi r next, by simp⟩
  · contradiction

/-- A rule that no production asks for does not begin. -/
theorem upcomingOf_unused (hg : g.Indexed) {r : Nat}
    (unused : ∀ p ∈ g.productions, .rule r ∉ p.symbols) :
  (upcomingOf g items).getD r 0 = 0
  := by
  apply upcomingOf_eq_zero (R := fun r => ∃ p ∈ g.productions, .rule r ∈ p.symbols)
  · intro i _ r next
    apply Item.exists_mem_of_next? next
  · intro r _ lead hl
    apply hg.leads hl
  · push Not
    apply unused

/-- The tokens that can be read are those that items ask for and those that begin the rules that may
begin. -/
theorem has_readable :
  (ofItems g items).readable.has t = true
    ↔ (∃ i ∈ items, i.next? g = some (.token t))
      ∨ ∃ r < (upcomingOf g items).size, ((upcomingOf g items).getD r 0).isInhabited = true
        ∧ (g.openings.getD r 0).has t = true
  := by
  have fromRules := TokenSet.has_foldl (t := t)
    (fun set r => if ((upcomingOf g items).getD r 0).isInhabited then
      set.union (g.openings.getD r 0) else set)
    (fun r => ((upcomingOf g items).getD r 0).isInhabited = true
      ∧ (g.openings.getD r 0).has t = true)
    (by
      intro set r
      split <;> simp_all)
  apply (fromRules _ _).trans
  apply (or_congr (TokenSet.has_foldl _ (fun i => i.next? g = some (.token t)) ?_ items 0)
    Iff.rfl).trans
  · simp
  · intro set i
    split
    · next t' next =>
      simp only [TokenSet.has_union, TokenSet.has_single, Bool.or_eq_true, decide_eq_true_eq, next,
        Option.some.injEq, Symbol.token.injEq]
      rw [eq_comm (a := t)]
    · simp_all

/-- The end of a text is not read. -/
theorem not_has_readable_finish (hg : g.Indexed) :
  (ofItems g items).readable.has 0 = false
  := by
  apply Bool.eq_false_iff.mpr
  intro h
  obtain ⟨i, _, next⟩ | ⟨r, _, _, opening⟩ := has_readable.mp h
  · obtain ⟨p, hp, used⟩ := Item.exists_mem_of_next? next
    exact hg.finish p hp used
  · obtain ⟨p, hp, used⟩ := hg.openings opening
    exact hg.finish p hp used

/-! ### Items behind a symbol -/

theorem pass?_eq_some_iff {symbol : Symbol} {j : Item} :
  pass? g symbol j = some i ↔ j.next? g = some symbol ∧ i = { j with place := j.place + 1 }
  := by
  rw [pass?]
  split <;> simp_all only [beq_iff_eq, Option.some.injEq, true_and, reduceCtorEq, false_and]
  apply eq_comm

/-- The tokens that may follow the production with a number if its rule begins. -/
def followOf (g : Grammar τ ν) (s : State) (production : Nat) : TokenSet :=
  s.upcoming.getD ((g.productions[production]?.map (·.rule)).getD 0) 0

theorem begin?_eq_some_iff {n : Nat} :
  begin? g s n = some i
    ↔ (followOf g s n).isInhabited = true ∧ i = ⟨n, 1, followOf g s n⟩
  := by
  change (if (followOf g s n).isInhabited = true then some (Item.mk n 1 (followOf g s n)) else none)
    = some i ↔ _
  split <;> simp_all only [Option.some.injEq, true_and, reduceCtorEq, false_and, Bool.false_eq_true]
  apply eq_comm

/-- The items behind a symbol are those that asked for it, and the productions that begin with it and
whose rules may begin. -/
theorem mem_itemsBehind {symbol : Symbol} :
  i ∈ s.itemsBehind g symbol
    ↔ (∃ j ∈ s.items, j.next? g = some symbol ∧ i = { j with place := j.place + 1 })
      ∨ ∃ n ∈ g.startingWith symbol,
        (followOf g s n).isInhabited = true ∧ i = ⟨n, 1, followOf g s n⟩
  := by
  rw [itemsBehind, (Item.mergeSorted_perm _ _).mem_iff, List.mem_append]
  simp only [List.mem_filterMap, pass?_eq_some_iff, begin?_eq_some_iff]

/-- The symbol before the place of an item is the one that it stands behind. Before that symbol it
was an item already, unless its production begins with it. -/
theorem before_of_mem_itemsBehind (hg : g.Indexed) {symbol : Symbol}
    (h : i ∈ s.itemsBehind g symbol) :
  ∃ p place, g.productions[i.production]? = some p ∧ i.place = place + 1
    ∧ p.symbols[place]? = some symbol
    ∧ (0 < place → ∃ j ∈ s.items, j.production = i.production ∧ j.place = place)
  := by
  obtain ⟨j, hj, next, rfl⟩ | ⟨n, hn, _, rfl⟩ := mem_itemsBehind.mp h
  · obtain ⟨p, hp, hs⟩ := Item.next?_eq_some_iff.mp next
    exact ⟨p, j.place, hp, rfl, hs, fun _ => ⟨j, hj, rfl, rfl⟩⟩
  · obtain ⟨p, hp, hs⟩ := Option.bind_eq_some_iff.mp (hg.startingWith hn)
    exact ⟨p, 0, hp, rfl, hs, fun lt => absurd lt (Nat.lt_irrefl 0)⟩

/-- The production of the whole text is read only from its start on. -/
theorem whole_of_mem_itemsBehind (hg : g.Indexed) {symbol : Symbol}
    (h : i ∈ (ofItems g items).itemsBehind g symbol) (whole : i.production = g.wholeProduction) :
  ∃ j ∈ items, j.production = g.wholeProduction ∧ i.place = j.place + 1 ∧ i.follow = j.follow
  := by
  obtain ⟨w, hw, _, unused⟩ := hg.whole
  obtain ⟨j, hj, _, rfl⟩ | ⟨n, _, inhabited, rfl⟩ := mem_itemsBehind.mp h
  · exact ⟨j, hj, whole, rfl, rfl⟩
  · obtain rfl : n = g.wholeProduction := whole
    rw [TokenSet.isInhabited_iff, followOf, hw] at inhabited
    exact absurd (upcomingOf_unused hg unused) inhabited

/-! ### What is done on a token -/

theorem mem_strongest {items : List Item} (h : i ∈ strongest g items) :
  i ∈ items
  := (List.mem_filter.mp h).1

theorem endingOrder_perm (items : List Item) :
  (endingOrder g items).Perm items
  := by
  induction items with
  | nil => apply List.Perm.refl
  | cons a items ih =>
    rw [endingOrder, List.foldr_cons, ← endingOrder, List.span_eq_takeWhile_dropWhile]
    have split := List.takeWhile_append_dropWhile (p := fun b => !endsBefore g a b)
      (l := endingOrder g items)
    apply List.perm_middle.trans
    apply List.Perm.cons
    rw [split]
    apply ih

theorem mem_ended_settle {ranks : List Int} {rank : Int} {sides : List (Option Side)}
    {ended : List Nat} {n : Nat} (h : n ∈ (settle ranks rank sides ended).ended) :
  n ∈ ended
  := by
  unfold settle at h
  simp only at h
  split_ifs at h <;> simp_all

@[simp]
theorem accepts_settle (ranks : List Int) (rank : Int) (sides : List (Option Side))
    (ended : List Nat) :
  (settle ranks rank sides ended).accepts = false
  := by
  unfold settle
  simp only
  split_ifs <;> rfl

/-- The items whose productions may be ended before a token. -/
def complete (g : Grammar τ ν) (s : State) (t : Nat) : List Item :=
  s.items.filter fun i => (i.next? g).isNone && i.follow.has t

theorem mem_complete :
  i ∈ complete g s t ↔ i ∈ s.items ∧ i.next? g = none ∧ i.follow.has t = true
  := by
  simp [complete]

/-- The productions that are ended are those of complete items that the token may follow. -/
theorem mem_ended {n : Nat} (h : n ∈ (s.choices g t).ended) :
  ∃ i ∈ complete g s t, i.production = n
  := by
  unfold choices at h
  rw [← complete] at h
  simp only at h
  split at h
  · contradiction
  · split at h
    · contradiction
    · have ended : n ∈ (endingOrder g (strongest g (complete g s t))).map (·.production) := by
        split at h
        · apply mem_ended_settle h
        · apply h
      obtain ⟨i, hi, rfl⟩ := List.mem_map.mp ended
      exact ⟨i, mem_strongest ((endingOrder_perm _).mem_iff.mp hi), rfl⟩

/-- A token that is read can be read. -/
theorem readable_of_reads (h : (s.choices g t).reads = true) :
  s.readable.has t = true
  := by
  unfold choices at h
  rw [← complete] at h
  simp only at h
  split at h
  · contradiction
  · split at h
    · apply h
    · split at h
      · assumption
      · contradiction

/-- What is read is not the end of the text. -/
theorem ne_finish_of_reads (hg : g.Indexed) (made : s = ofItems g s.items)
    (h : (s.choices g t).reads = true) :
  t ≠ 0
  := by
  rintro rfl
  have readable := readable_of_reads h
  rw [made, not_has_readable_finish hg] at readable
  contradiction

/-- A text is accepted where the production of the whole text is complete. -/
theorem accepts_choices :
  (s.choices g t).accepts = true ↔ ∃ i ∈ complete g s t, i.production = g.wholeProduction
  := by
  unfold choices
  rw [← complete]
  simp only
  split
  · simp_all
  · split
    · simp_all
    · split <;> simp_all

end State

/-! ### States by number -/

namespace Automaton

variable {a b c : Automaton}

/-- Every state is made from its items. -/
def Made (g : Grammar τ ν) (a : Automaton) : Prop :=
  ∀ (n : Nat) (q : State), a.states[n]? = some q → q = .ofItems g q.items

/-- Every state is made from its items, the first one is the one at the start of a text, and every
known move from a state leads to the state with the items behind the symbol. -/
structure Lawful (g : Grammar τ ν) (a : Automaton) : Prop where
  start : a.states[0]? = some g.startState
  made : Made g a
  moves : ∀ {n m : Nat} {symbol : Symbol}, a.moves[moveKey n symbol]? = some m →
    ∃ q q', a.states[n]? = some q ∧ a.states[m]? = some q' ∧ q'.items = q.itemsBehind g symbol
      ∧ q'.items ≠ []

/-- The second automaton has the states of the first under the same numbers. -/
def Grows (a b : Automaton) : Prop :=
  ∀ (n : Nat) (q : State), a.states[n]? = some q → b.states[n]? = some q

theorem Grows.rfl :
  Grows a a
  := fun _ _ known => known

theorem Grows.trans (h : Grows a b) (h' : Grows b c) :
  Grows a c
  := fun n q known => h' n q (h n q known)

theorem code_injective {s s' : Symbol} (h : s.code = s'.code) :
  s = s'
  := by
  cases s <;> cases s' <;> simp [Symbol.code] at h ⊢ <;> omega

/-- The square next below a key tells the sum of the state and the symbol. -/
theorem moveKey_inj {n n' : Nat} {s s' : Symbol} :
  moveKey n s = moveKey n' s' ↔ n = n' ∧ s = s'
  := by
  constructor
  · intro h
    rw [moveKey, moveKey] at h
    have sums : n + s.code = n' + s'.code := by
      by_contra ne
      obtain lt | gt := Nat.lt_or_gt_of_ne ne
      · have := Nat.mul_le_mul (Nat.succ_le_of_lt lt) (Nat.succ_le_of_lt lt)
        grind
      · have := Nat.mul_le_mul (Nat.succ_le_of_lt gt) (Nat.succ_le_of_lt gt)
        grind
    rw [sums] at h
    have codes := Nat.add_left_cancel h
    exact ⟨by omega, code_injective codes⟩
  · rintro ⟨rfl, rfl⟩
    rfl

/-- The state with the given items is there under its number afterwards, and nothing else changes. -/
theorem stateOf_spec (ha : Made g a) (items : List Item) :
  (a.stateOf g items).2.states[(a.stateOf g items).1]? = some (.ofItems g items)
    ∧ Made g (a.stateOf g items).2 ∧ Grows a (a.stateOf g items).2
    ∧ (a.stateOf g items).2.moves = a.moves
  := by
  unfold stateOf
  simp only
  split
  · next n found =>
    have same := List.find?_some found
    simp only [beq_iff_eq, Option.map_eq_some_iff] at same
    obtain ⟨q, hq, rfl⟩ := same
    refine ⟨?_, ha, Grows.rfl, rfl⟩
    rw [hq, ← ha n q hq]
  · refine ⟨by simp, ?_, ?_, rfl⟩
    · intro n q hq
      rw [Array.getElem?_push] at hq
      split at hq
      · obtain rfl := Option.some.inj hq
        rfl
      · apply ha n q hq
    · intro n q hq
      have known := (Array.getElem?_eq_some_iff.mp hq).1
      rw [Array.getElem?_push, if_neg (Nat.ne_of_lt known), hq]

theorem start_lawful (g : Grammar τ ν) :
  Lawful g (start g)
  := by
  have none : Made g {} := by
    intro n q hq
    contradiction
  obtain ⟨here, made, _, moves⟩ := stateOf_spec none [g.startItem]
  refine ⟨here, made, ?_⟩
  intro n m symbol known
  have unknown : (start g).moves = ({} : Automaton).moves := moves
  rw [unknown] at known
  contradiction

/-- A move leads to the state with the items behind the symbol. -/
theorem move_spec (ha : Lawful g a) (n : Nat) (symbol : Symbol) :
  Lawful g (a.move g n symbol).2 ∧ Grows a (a.move g n symbol).2
    ∧ ∀ m, (a.move g n symbol).1 = some m →
      ∃ q q', a.states[n]? = some q ∧ (a.move g n symbol).2.states[m]? = some q'
        ∧ q'.items = q.itemsBehind g symbol ∧ q'.items ≠ []
  := by
  unfold move
  simp only
  split
  · next m known =>
    refine ⟨ha, Grows.rfl, ?_⟩
    rintro _ ⟨⟩
    apply ha.moves known
  · split
    · exact ⟨ha, Grows.rfl, nofun⟩
    · next q hq =>
      split
      · exact ⟨ha, Grows.rfl, nofun⟩
      · next items inhabited =>
        obtain ⟨here, made, grows, moves⟩ := stateOf_spec ha.made (q.itemsBehind g symbol)
        refine ⟨⟨grows _ _ ha.start, made, ?_⟩, grows, ?_⟩
        · intro k m symbol' known
          rw [Std.TreeMap.getElem?_insert] at known
          split at known
          · next same =>
            obtain ⟨rfl, rfl⟩ := moveKey_inj.mp (Nat.compare_eq_eq.mp same)
            obtain rfl := Option.some.inj known
            exact ⟨q, _, grows _ _ hq, here, rfl, inhabited⟩
          · obtain ⟨q₁, q₂, h₁, h₂, items⟩ := ha.moves (moves ▸ known)
            exact ⟨q₁, q₂, grows _ _ h₁, grows _ _ h₂, items⟩
        · rintro _ ⟨⟩
          exact ⟨q, _, hq, here, rfl, inhabited⟩

end Automaton

end SourceAtlas.Parsing
