import Mathlib.Data.Finset.Card
import Mathlib.Data.Finset.Prod
import SourceAtlas.Proofs.Parsing.Tables

/-!
# Everything that may begin is found

What may follow the rules that begin at a state is passed on to the rules that begin them until
nothing new comes up. There are steps enough for that: a rule is looked at again only if a token was
added to what may follow it, and there are only so many rules and tokens. So what is found is closed:
it has what the items ask for and what the rules that begin lead to.
-/

namespace SourceAtlas.Parsing

variable {τ ν : Type} {g : Grammar τ ν}

/-- A rule and tokens that the grammar has. -/
structure Grammar.Small (g : Grammar τ ν) (want : Nat × TokenSet) : Prop where
  rule : want.1 < g.ruleCount
  tokens : ∀ t, want.2.has t = true → t < g.tokens.size

/-- The productions and the leads of a grammar are made of its rules, and only its tokens begin and
follow them. -/
structure Grammar.Closed (g : Grammar τ ν) : Prop where
  inhabited : 0 < g.tokens.size
  rules : ∀ p ∈ g.productions, ∀ r, .rule r ∈ p.symbols → r < g.ruleCount
  begins : ∀ p ∈ g.productions, ∀ s ∈ p.symbols, ∀ t, (beginning g.firsts s).has t = true →
    t < g.tokens.size
  leads : ∀ r, ∀ lead ∈ g.leads.getD r [], g.Small (lead.rule, lead.behind)
  forced : ∀ r t, (g.forced.getD r 0).has t = true → t < g.tokens.size

namespace Outlook

variable {o : Outlook}

/-- An outlook over the rules of a grammar with its tokens only. -/
structure Fits (g : Grammar τ ν) (o : Outlook) : Prop where
  size : o.upcoming.size = g.ruleCount
  tokens : ∀ r t, (o.upcoming.getD r 0).has t = true → t < g.tokens.size

/-- What may follow a rule, and what is still missing. -/
def missing (g : Grammar τ ν) (o : Outlook) : Finset (Nat × Nat) :=
  (Finset.range g.ruleCount ×ˢ Finset.range g.tokens.size).filter
    fun x => (o.upcoming.getD x.1 0).has x.2 = false

/-- The steps that may still be needed. -/
def remaining (g : Grammar τ ν) (o : Outlook) : Nat :=
  (o.missing g).card + o.work.length

/-- Nothing new is expected, or a token is added and the rule has to be looked at. -/
theorem expect_cases (o : Outlook) (rule : Nat) (tokens : TokenSet) :
  (o.expect rule tokens = o ∧ ∀ t, tokens.has t = true → (o.upcoming.getD rule 0).has t = true)
    ∨ (∃ t, tokens.has t = true ∧ (o.upcoming.getD rule 0).has t = false)
      ∧ o.expect rule tokens
        = ⟨o.upcoming.setIfInBounds rule ((o.upcoming.getD rule 0).union tokens), rule :: o.work⟩
  := by
  unfold expect
  simp only
  split
  · next same =>
    refine .inl ⟨rfl, ?_⟩
    intro t ht
    rw [← beq_iff_eq.mp same, TokenSet.has_union, ht, Bool.or_true]
  · next differs =>
    refine .inr ⟨?_, rfl⟩
    by_contra none
    push Not at none
    apply differs
    apply beq_iff_eq.mpr
    apply Nat.eq_of_testBit_eq
    intro t
    have has := TokenSet.has_union (o.upcoming.getD rule 0) tokens t
    cases ht : tokens.has t with
    | false => rwa [ht, Bool.or_false] at has
    | true =>
      have known : (o.upcoming.getD rule 0).has t = true := by simpa using none t ht
      rw [known, Bool.true_or] at has
      exact has.trans known.symm

theorem has_expect (o : Outlook) {rule : Nat} (hr : rule < o.upcoming.size) (tokens : TokenSet)
    (r t : Nat) :
  ((o.expect rule tokens).upcoming.getD r 0).has t = true
    ↔ (o.upcoming.getD r 0).has t = true ∨ r = rule ∧ tokens.has t = true
  := by
  obtain ⟨same, known⟩ | ⟨_, changed⟩ := expect_cases o rule tokens
  · rw [same]
    constructor
    · exact .inl
    · rintro (has | ⟨rfl, has⟩)
      · exact has
      · exact known t has
  · rw [changed]
    simp only [Array.getD_eq_getD_getElem?, Array.getElem?_setIfInBounds]
    by_cases here : rule = r
    · subst here
      simp [hr]
    · simp [here, Ne.symm here]

theorem size_expect (o : Outlook) (rule : Nat) (tokens : TokenSet) :
  (o.expect rule tokens).upcoming.size = o.upcoming.size
  := by
  obtain ⟨same, _⟩ | ⟨_, changed⟩ := expect_cases o rule tokens
  · rw [same]
  · rw [changed]
    apply Array.size_setIfInBounds

theorem Fits.expect (h : Fits g o) {want : Nat × TokenSet} (small : g.Small want) :
  Fits g (o.expect want.1 want.2)
  := by
  constructor
  · rw [size_expect, h.size]
  · intro r t ht
    obtain has | ⟨_, has⟩ := (has_expect o (h.size ▸ small.rule) want.2 r t).mp ht
    · exact h.tokens r t has
    · exact small.tokens t has

/-- A rule is looked at again only if something was missing. -/
theorem remaining_expect (h : Fits g o) {want : Nat × TokenSet} (small : g.Small want) :
  (o.expect want.1 want.2).remaining g ≤ o.remaining g
  := by
  obtain ⟨same, _⟩ | ⟨⟨t, has, new⟩, changed⟩ := expect_cases o want.1 want.2
  · rw [same]
  · have inBounds := h.size ▸ small.rule
    have fewer : ((o.expect want.1 want.2).missing g).card < (o.missing g).card := by
      apply Finset.card_lt_card
      apply Finset.ssubset_iff_of_subset _ |>.mpr
      · refine ⟨(want.1, t), ?_, ?_⟩
        · simp only [missing, Finset.mem_filter, Finset.mem_product, Finset.mem_range]
          exact ⟨⟨small.rule, small.tokens t has⟩, new⟩
        · simp only [missing, Finset.mem_filter, not_and, Bool.not_eq_false]
          intro _
          exact (has_expect o inBounds want.2 want.1 t).mpr (.inr ⟨rfl, has⟩)
      · intro x hx
        simp only [missing, Finset.mem_filter] at hx ⊢
        refine ⟨hx.1, ?_⟩
        by_contra known
        have kept := (has_expect o inBounds want.2 x.1 x.2).mpr (.inl (by simpa using known))
        rw [hx.2] at kept
        contradiction
    have longer : (o.expect want.1 want.2).work.length = o.work.length + 1 := by
      rw [changed]
      rfl
    rw [remaining, remaining, longer]
    omega

/-! ### Several rules -/

/-- What was there stays, and rules for which something was added are to be looked at. -/
structure Extends (o o' : Outlook) : Prop where
  has : ∀ r t, (o.upcoming.getD r 0).has t = true → (o'.upcoming.getD r 0).has t = true
  work : ∀ r ∈ o.work, r ∈ o'.work
  changed : ∀ r, r ∉ o'.work → o'.upcoming.getD r 0 = o.upcoming.getD r 0

theorem Extends.trans {o' o'' : Outlook} (h : Extends o o') (h' : Extends o' o'') :
  Extends o o''
  := by
  refine ⟨fun r t ht => h'.has r t (h.has r t ht), fun r hr => h'.work r (h.work r hr), ?_⟩
  intro r hr
  rw [h'.changed r hr, h.changed r fun hr' => hr (h'.work r hr')]

theorem extends_expect (h : Fits g o) {want : Nat × TokenSet} (small : g.Small want) :
  Extends o (o.expect want.1 want.2)
  := by
  refine ⟨fun r t ht => (has_expect o (h.size ▸ small.rule) want.2 r t).mpr (.inl ht), ?_, ?_⟩
  · obtain ⟨same, _⟩ | ⟨_, changed⟩ := expect_cases o want.1 want.2
    · rw [same]
      simp
    · rw [changed]
      intro r hr
      exact List.mem_cons_of_mem _ hr
  · obtain ⟨same, _⟩ | ⟨_, changed⟩ := expect_cases o want.1 want.2
    · rw [same]
      simp
    · rw [changed]
      intro r hr
      have ne : want.1 ≠ r := by
        rintro rfl
        exact hr List.mem_cons_self
      simp [Array.getD_eq_getD_getElem?, ne]

/-- All that is expected of several rules is there afterwards. -/
theorem expectAll_spec {wants : List (Nat × TokenSet)} (h : Fits g o)
    (small : ∀ want ∈ wants, g.Small want) :
  Fits g (o.expectAll wants) ∧ (o.expectAll wants).remaining g ≤ o.remaining g
    ∧ Extends o (o.expectAll wants)
    ∧ ∀ want ∈ wants, ∀ t, want.2.has t = true →
      ((o.expectAll wants).upcoming.getD want.1 0).has t = true
  := by
  induction wants generalizing o with
  | nil => exact ⟨h, Nat.le_refl _, ⟨fun _ _ => id, fun _ => id, fun _ _ => rfl⟩, by simp⟩
  | cons want wants ih =>
    obtain ⟨first, others⟩ := List.forall_mem_cons.mp small
    obtain ⟨fits, steps, extends', found⟩ := ih (h.expect first) others
    refine ⟨fits, steps.trans (remaining_expect h first), (extends_expect h first).trans extends', ?_⟩
    rw [List.forall_mem_cons]
    refine ⟨?_, found⟩
    intro t ht
    apply extends'.has
    exact (has_expect o (h.size ▸ first.rule) want.2 want.1 t).mpr (.inr ⟨rfl, ht⟩)

/-! ### Passing on -/

/-- What may follow a rule is passed on to the rules that begin it. -/
def Passed (g : Grammar τ ν) (upcoming : Array TokenSet) (r : Nat) : Prop :=
  ∀ lead ∈ g.leads.getD r [], ∀ t, (wantOf g (upcoming.getD r 0) lead).2.has t = true →
    (upcoming.getD lead.rule 0).has t = true

/-- Every rule that may begin is passed on or has to be looked at. -/
def Pending (g : Grammar τ ν) (o : Outlook) : Prop :=
  ∀ r, o.upcoming.getD r 0 ≠ 0 → r ∈ o.work ∨ Passed g o.upcoming r

theorem small_wantOf (hg : g.Closed) {follow : TokenSet}
    (hf : ∀ t, follow.has t = true → t < g.tokens.size) {r : Nat} {lead : Lead}
    (hl : lead ∈ g.leads.getD r []) :
  g.Small (wantOf g follow lead)
  := by
  have small := hg.leads r lead hl
  refine ⟨small.rule, ?_⟩
  intro t ht
  simp only [wantOf, TokenSet.has_union, Bool.or_eq_true] at ht
  obtain ht | ht := ht
  · split at ht
    · rw [TokenSet.has_union, Bool.or_eq_true] at ht
      exact ht.elim (small.tokens t) (hf t)
    · exact small.tokens t ht
  · exact hg.forced _ t ht

theorem Pending.passed (h : Pending g o) (done : o.work = []) {r : Nat}
    (hr : o.upcoming.getD r 0 ≠ 0) :
  Passed g o.upcoming r
  := by
  obtain inWork | passed := h r hr
  · rw [done] at inWork
    contradiction
  · exact passed

/-- A rule is looked at by expecting what it wants. -/
theorem Pending.round {upcoming : Array TokenSet} {work : List Nat} {rule : Nat} {o' : Outlook}
    (h : Pending g ⟨upcoming, rule :: work⟩) (extends' : Extends ⟨upcoming, work⟩ o')
    (found : ∀ lead ∈ g.leads.getD rule [], ∀ t,
      (wantOf g (upcoming.getD rule 0) lead).2.has t = true →
      (o'.upcoming.getD lead.rule 0).has t = true) :
  Pending g o'
  := by
  intro r hr
  apply or_iff_not_imp_left.mpr
  intro notPending
  have same := extends'.changed r notPending
  intro lead hl t ht
  rw [same] at ht
  by_cases looked : r = rule
  · subst looked
    exact found lead hl t ht
  · rw [same] at hr
    obtain inWork | passed := h r hr
    · obtain rfl | inWork := List.mem_cons.mp inWork
      · contradiction
      · exact absurd (extends'.work r inWork) notPending
    · exact extends'.has _ t (passed lead hl t ht)

/-- With enough steps everything is passed on: a rule that is taken off the list comes back only for
tokens that were missing. -/
theorem passed_spread (hg : g.Closed) (fuel : Nat) (fits : Fits g o) (pending : Pending g o)
    (enough : o.remaining g ≤ fuel) :
  (∀ r t, (o.upcoming.getD r 0).has t = true → ((spread g fuel o).getD r 0).has t = true)
    ∧ ∀ r, (spread g fuel o).getD r 0 ≠ 0 → Passed g (spread g fuel o) r
  := by
  induction fuel generalizing o with
  | zero =>
    have done : o.work = [] := by
      rw [remaining] at enough
      exact List.eq_nil_of_length_eq_zero (by omega)
    exact ⟨fun _ _ => id, fun _ => pending.passed done⟩
  | succ fuel ih =>
    obtain ⟨upcoming, work⟩ := o
    cases work with
    | nil => exact ⟨fun _ _ => id, fun _ => pending.passed rfl⟩
    | cons rule work =>
      have rest : Fits g ⟨upcoming, work⟩ := ⟨fits.size, fits.tokens⟩
      have small : ∀ want ∈ (g.leads.getD rule []).map (wantOf g (upcoming.getD rule 0)),
          g.Small want := by
        intro want hw
        obtain ⟨lead, hl, rfl⟩ := List.mem_map.mp hw
        exact small_wantOf hg (fits.tokens rule) hl
      obtain ⟨fits', steps, extends', found⟩ := expectAll_spec rest small
      have pending' := pending.round extends' fun lead hl => found _ (List.mem_map_of_mem hl)
      have one : remaining g ⟨upcoming, rule :: work⟩ = remaining g ⟨upcoming, work⟩ + 1 := rfl
      obtain ⟨kept, passed⟩ := ih fits' pending' (by omega)
      rw [spread]
      exact ⟨fun r t ht => kept r t (extends'.has r t ht), passed⟩

end Outlook

namespace State

variable {items : List Item} {r t : Nat}

/-- What may follow the rules that begin at a state is closed: it has what the items ask for, and it
is passed on to the rules that begin other ones. -/
theorem upcomingOf_spec (hg : g.Closed)
    (small : ∀ want ∈ items.filterMap (Outlook.wantOf? g), g.Small want) :
  (∀ i ∈ items, ∀ want, Outlook.wantOf? g i = some want → ∀ t, want.2.has t = true →
      ((upcomingOf g items).getD want.1 0).has t = true)
    ∧ ∀ r, (upcomingOf g items).getD r 0 ≠ 0 → Outlook.Passed g (upcomingOf g items) r
  := by
  have empty : Outlook.Fits g ⟨Array.replicate g.ruleCount 0, []⟩ := by
    refine ⟨Array.size_replicate, ?_⟩
    intro r t ht
    rw [Grammar.getD_replicate, TokenSet.not_has_zero] at ht
    contradiction
  obtain ⟨fits, steps, extends', found⟩ := Outlook.expectAll_spec empty small
  have pending : Outlook.Pending g (Outlook.expectAll ⟨Array.replicate g.ruleCount 0, []⟩
      (items.filterMap (Outlook.wantOf? g))) := by
    intro r hr
    apply or_iff_not_imp_right.mpr
    intro _
    by_contra notPending
    apply hr
    rw [extends'.changed r notPending, Grammar.getD_replicate]
  have enough : Outlook.remaining g (Outlook.expectAll ⟨Array.replicate g.ruleCount 0, []⟩
      (items.filterMap (Outlook.wantOf? g))) ≤ g.ruleCount * (g.tokens.size + 1) := by
    apply steps.trans
    rw [Outlook.remaining, List.length_nil, Nat.add_zero]
    apply (Finset.card_filter_le _ _).trans
    rw [Finset.card_product, Finset.card_range, Finset.card_range]
    apply Nat.mul_le_mul_left
    omega
  obtain ⟨kept, passed⟩ := Outlook.passed_spread hg _ fits pending enough
  refine ⟨?_, passed⟩
  intro i hi want hw t ht
  exact kept _ t (found want (List.mem_filterMap.mpr ⟨i, hi, hw⟩) t ht)

end State

end SourceAtlas.Parsing
