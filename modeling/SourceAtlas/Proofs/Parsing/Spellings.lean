import SourceAtlas.Proofs.Parsing.Compiled

/-!
# Spellings

The productions of a grammar that is made from rules are the spellings of the rules, written with
numbers: a named rule or a repetition, and a row of parts that it stands for. What the tables of the
grammar tell about numbers they tell about parts (`Compiled`). A token begins only the parts to which
it leads (`Compiled.of_has_beginning`), so a derived tree that starts with the token is one of these
(`Compiled.of_head?_leaves`), and parts that lead only to one another are all that may begin where
one of them is asked for (`Compiled.leading`).
-/

namespace SourceAtlas.Parsing

variable {τ ν : Type}

/-! ### First tokens -/

namespace Grammar

section Firsts

variable {ps : Array Production} {t : Nat} {W : Nat → Prop}

/-- The rules have every production that begins with the token or with one of the rules. -/
def LeftClosed (ps : Array Production) (t : Nat) (W : Nat → Prop) : Prop :=
  ∀ p ∈ ps, ∀ s, p.symbols.toList.head? = some s → (s = .token t ∨ ∃ r, s = .rule r ∧ W r) →
    W p.rule

theorem of_has_addFirsts (closed : LeftClosed ps t W) {firsts : Array TokenSet}
    (h : ∀ r, (firsts.getD r 0).has t = true → W r) {p : Production} (hp : p ∈ ps) {r : Nat}
    (hr : ((addFirsts firsts p).getD r 0).has t = true) :
  W r
  := by
  unfold addFirsts at hr
  split at hr
  · next s rest row =>
    rw [getD_modify] at hr
    split at hr
    · next here =>
      rw [TokenSet.has_union, Bool.or_eq_true] at hr
      obtain begins | known := hr
      · rw [← here.1]
        apply closed p hp s (by rw [row]; rfl)
        cases s with
        | token t' =>
          rw [beginning, TokenSet.has_single, decide_eq_true_eq] at begins
          exact .inl (congrArg _ begins.symm)
        | rule r' => exact .inr ⟨r', rfl, h r' begins⟩
      · exact h r known
    · exact h r hr
  · exact h r hr

theorem of_has_firstsRound (closed : LeftClosed ps t W) {firsts : Array TokenSet}
    (h : ∀ r, (firsts.getD r 0).has t = true → W r) (r : Nat)
    (hr : ((firstsRound ps firsts).getD r 0).has t = true) :
  W r
  := by
  obtain ⟨ps⟩ := ps
  rw [firstsRound, List.foldl_toArray] at hr
  revert r
  apply List.foldlRecOn (motive := fun firsts : Array TokenSet =>
    ∀ r, (firsts.getD r 0).has t = true → W r) _ _ h
  intro firsts ih p hp r hr
  apply of_has_addFirsts closed ih (List.mem_toArray.mpr hp) hr

/-- A token begins only rules to which it leads. -/
theorem of_has_collectFirsts (closed : LeftClosed ps t W) (rounds : Nat) {firsts : Array TokenSet}
    (h : ∀ r, (firsts.getD r 0).has t = true → W r) {r : Nat}
    (hr : ((collectFirsts ps rounds firsts).getD r 0).has t = true) :
  W r
  := by
  induction rounds generalizing firsts with
  | zero => exact h r hr
  | succ rounds ih =>
    rw [collectFirsts] at hr
    split at hr
    · exact h r hr
    · apply ih (of_has_firstsRound closed h) hr

end Firsts

/-! ### Forced tokens -/

section Forced

variable [BEq τ] [BEq ν]

/-- What is forced behind a rule comes from the list of forced tokens. -/
theorem of_has_forced {finish : τ} {rules : List (ν × Rule τ ν)} {forced : List (ν × τ)} {r t : Nat}
    (h : ((ofRules finish rules forced).forced.getD r 0).has t = true) :
  ∃ pair ∈ forced, (Numbering.ofRules finish rules).names.idxOf pair.1 = r
    ∧ (Numbering.ofRules finish rules).tokens.idxOf pair.2 = t
  := by
  rw [ofRules] at h
  simp only at h
  revert r
  apply List.foldlRecOn (motive := fun sets : Array TokenSet => ∀ {r}, (sets.getD r 0).has t = true →
    ∃ pair ∈ forced, (Numbering.ofRules finish rules).names.idxOf pair.1 = r
      ∧ (Numbering.ofRules finish rules).tokens.idxOf pair.2 = t)
  · intro r h
    rw [getD_replicate, TokenSet.not_has_zero] at h
    contradiction
  · intro sets ih pair hp r h
    rw [getD_modify] at h
    split at h
    · next here =>
      rw [TokenSet.has_union, TokenSet.has_single, Bool.or_eq_true, decide_eq_true_eq] at h
      obtain h | h := h
      · exact ⟨pair, hp, here.1, h.symm⟩
      · exact ih h
    · exact ih h

end Forced

/-! ### Spellings -/

/-- Two parts are the same. -/
def samePart [BEq τ] [BEq ν] : Part τ ν → Part τ ν → Bool
  | .token t, .token t' => t == t'
  | .named name, .named name' => name == name'
  | .repeated rule, .repeated rule' => rule == rule'
  | _, _ => false

theorem samePart_iff [BEq τ] [LawfulBEq τ] [BEq ν] [LawfulBEq ν] {part part' : Part τ ν} :
  samePart part part' = true ↔ part = part'
  := by
  cases part <;> cases part' <;> simp [samePart]

instance [BEq τ] [LawfulBEq τ] [BEq ν] [LawfulBEq ν] : DecidableEq (Part τ ν) :=
  fun _ _ => decidable_of_iff _ samePart_iff

/-- A named rule or a repetition, and a row of parts that it stands for. -/
structure Spelling (τ ν : Type) where
  head : Part τ ν
  row : List (Part τ ν)
  deriving DecidableEq

namespace Spelling

/-- The spellings of a named rule. -/
def ofNamed (name : ν) (rule : Rule τ ν) : List (Spelling τ ν) :=
  rule.alternatives.map fun a => ⟨.named name, a.parts⟩

/-- The spellings of a repetition. -/
def ofRepeated (rule : Rule τ ν) : List (Spelling τ ν) :=
  rule.alternatives.flatMap fun a =>
    [⟨.repeated rule, .repeated rule :: a.parts⟩, ⟨.repeated rule, a.parts⟩]

/-- The spellings of named rules and of the repetitions in them. -/
def ofRules (rules : List (ν × Rule τ ν)) : List (Spelling τ ν) :=
  rules.flatMap fun (name, rule) => ofNamed name rule ++ rule.repetitions.flatMap ofRepeated

/-- The production has the symbols of the spelling. -/
structure Of [BEq τ] [BEq ν] (n : Numbering τ ν) (s : Spelling τ ν) (p : Production) : Prop where
  head : .rule p.rule = n.symbol s.head
  row : p.symbols.toList = s.row.map n.symbol

/-- The parts have every spelling that begins with the token or with one of them. -/
def LeftClosed (spellings : List (Spelling τ ν)) (t : τ) (W : Part τ ν → Prop) : Prop :=
  ∀ s ∈ spellings, ∀ part, s.row.head? = some part → part = .token t ∨ W part → W s.head

section OfRules

variable [BEq τ] [LawfulBEq τ] [BEq ν] [LawfulBEq ν] {finish : τ} {rules : List (ν × Rule τ ν)}
  {s : Spelling τ ν} {p : Production}

/-- Every production but the one of the whole text has a spelling. -/
theorem exists_of_mem (hr : Sensible finish rules)
    (hp : p ∈ (Numbering.ofRules finish rules).productions rules) :
  p.rule = (Numbering.ofRules finish rules).ruleCount ∧ p.symbols.toList = [.rule 0]
    ∨ ∃ s ∈ ofRules rules, s.Of (Numbering.ofRules finish rules) p
  := by
  cases Numbering.origin hr hp with
  | @named name rule a mem alternative number row =>
    refine .inr ⟨⟨.named name, a.parts⟩, ?_, number, row⟩
    refine List.mem_flatMap.mpr ⟨_, mem, List.mem_append_left _ ?_⟩
    exact List.mem_map.mpr ⟨a, alternative, rfl⟩
  | @repeated rule a mem alternative number row =>
    obtain ⟨⟨name, whole⟩, hw, hr⟩ := List.mem_flatMap.mp (mem_distinct.mp mem)
    have inside : ∀ s ∈ [Spelling.mk (.repeated rule) (.repeated rule :: a.parts),
        ⟨.repeated rule, a.parts⟩], s ∈ ofRules rules := by
      intro s hs
      refine List.mem_flatMap.mpr ⟨_, hw, List.mem_append_right _ ?_⟩
      exact List.mem_flatMap.mpr ⟨rule, hr, List.mem_flatMap.mpr ⟨a, alternative, hs⟩⟩
    obtain row | row := row
    · exact .inr ⟨_, inside _ (List.mem_cons_of_mem _ List.mem_cons_self), number, row⟩
    · exact .inr ⟨_, inside _ List.mem_cons_self, number, row⟩
  | whole number row => exact .inl ⟨number, row⟩

/-- Every spelling has a production. -/
theorem exists_production (hr : Sensible finish rules) (hs : s ∈ ofRules rules) :
  ∃ p ∈ (Numbering.ofRules finish rules).productions rules, s.Of (Numbering.ofRules finish rules) p
  := by
  obtain ⟨⟨name, rule⟩, mem, hs⟩ := List.mem_flatMap.mp hs
  obtain ⟨r, here⟩ := List.mem_iff_getElem?.mp mem
  obtain hs | hs := List.mem_append.mp hs
  · obtain ⟨a, ha, rfl⟩ := List.mem_map.mp hs
    refine ⟨_, Numbering.mem_productions.mpr (.inl ⟨r, name, rule, here, List.mem_map.mpr ⟨a, ha, rfl⟩⟩),
      ?_, rfl⟩
    rw [Numbering.symbol, Numbering.idxOf_of_getElem? hr here]
  · obtain ⟨inner, hi, hs⟩ := List.mem_flatMap.mp hs
    obtain ⟨a, ha, hs⟩ := List.mem_flatMap.mp hs
    have known : inner ∈ (Numbering.ofRules finish rules).repeated :=
      mem_distinct.mpr (List.mem_flatMap.mpr ⟨_, mem, hi⟩)
    obtain ⟨k, there⟩ := List.mem_iff_getElem?.mp known
    have number : (Numbering.ofRules finish rules).symbol (.repeated inner)
        = .rule ((Numbering.ofRules finish rules).names.length + k) := by
      rw [Numbering.symbol, Numbering.idxOf_of_repeated there]
    have inside : ∀ p ∈ (Numbering.ofRules finish rules).repetitionProductions
        ((Numbering.ofRules finish rules).names.length + k) [a],
        p ∈ (Numbering.ofRules finish rules).productions rules := by
      intro p hp
      refine Numbering.mem_productions.mpr (.inr (.inl ⟨k, inner, there, ?_⟩))
      obtain ⟨b, hb, hp⟩ := List.mem_flatMap.mp hp
      obtain rfl := List.mem_singleton.mp hb
      exact List.mem_flatMap.mpr ⟨b, ha, hp⟩
    obtain rfl | hs := List.mem_cons.mp hs
    · refine ⟨_, inside _ List.mem_cons_self, number.symm, ?_⟩
      rw [List.map_cons, number]
    · obtain rfl := List.mem_singleton.mp hs
      exact ⟨_, inside _ (List.mem_cons_of_mem _ List.mem_cons_self), number.symm, rfl⟩

/-- What a spelling is made of has numbers and is not the end of the text. -/
theorem known_of_mem (hr : Sensible finish rules) (hs : s ∈ ofRules rules) {part : Part τ ν}
    (hp : part ∈ s.head :: s.row) :
  (Numbering.ofRules finish rules).Known part ∧ part ≠ .token finish
  := by
  obtain ⟨⟨name, rule⟩, mem, hs⟩ := List.mem_flatMap.mp hs
  obtain hs | hs := List.mem_append.mp hs
  · obtain ⟨a, ha, rfl⟩ := List.mem_map.mp hs
    obtain rfl | hp := List.mem_cons.mp hp
    · exact ⟨hr.named name, nofun⟩
    · exact Numbering.known_of_mem hr mem (Rule.uses_of_alternative rule ha hp)
  · obtain ⟨inner, hi, hs⟩ := List.mem_flatMap.mp hs
    obtain ⟨a, ha, hs⟩ := List.mem_flatMap.mp hs
    have uses : rule.Uses (.repeated inner) := hi
    have itself := Numbering.known_of_mem hr mem uses
    have inside : ∀ part ∈ a.parts, (Numbering.ofRules finish rules).Known part ∧ part ≠ .token finish :=
      fun part hp => Numbering.known_of_mem hr mem
        (Rule.uses_of_repetition rule hi (Rule.uses_of_alternative inner ha hp))
    obtain rfl | hs := List.mem_cons.mp hs
    · obtain rfl | hp := List.mem_cons.mp hp
      · exact itself
      · obtain rfl | hp := List.mem_cons.mp hp
        · exact itself
        · exact inside part hp
    · obtain rfl := List.mem_singleton.mp hs
      obtain rfl | hp := List.mem_cons.mp hp
      · exact itself
      · exact inside part hp

end OfRules

end Spelling

/-! ### Compiled grammars -/

/-- The tables of the grammar tell what the spellings do, with the given tokens forced. -/
structure Compiled [BEq τ] [BEq ν] (g : Grammar τ ν) (n : Numbering τ ν) (finish : τ)
    (spellings : List (Spelling τ ν)) (forced : List (ν × τ)) : Prop where
  rules : g.ruleCount = n.ruleCount + 1
  tokens : g.tokens.size = n.tokens.length
  finish : finish ∈ n.tokens
  whole : ∃ name, n.Known (.named name) ∧ n.symbol (.named name) = .rule 0
  spelled : ∀ {p}, p ∈ g.productions →
    p.rule = n.ruleCount ∧ p.symbols.toList = [.rule 0] ∨ ∃ s ∈ spellings, s.Of n p
  production : ∀ {s}, s ∈ spellings → ∃ p ∈ g.productions, s.Of n p
  known : ∀ {s}, s ∈ spellings → ∀ {part}, part ∈ s.head :: s.row → n.Known part
  nodup : ∀ symbol, (g.startingWith symbol).Nodup
  starting : ∀ {part}, n.Known part → ∀ {m p}, g.productions[m]? = some p →
    p.symbols.toList.head? = some (n.symbol part) → m ∈ g.startingWith (n.symbol part)
  firsts : ∀ {t W}, LeftClosed g.productions t W → ∀ {r}, (g.firsts.getD r 0).has t = true → W r
  stems : ∀ {r lead}, lead ∈ g.leads.getD r [] → Stems g.productions g.firsts r lead
  tells : ∀ {p}, p ∈ g.productions → ∀ {lead}, leadOf? g.firsts p = some lead →
    Tells g.leads p.rule lead
  openings : ∀ {r t}, (g.openings.getD r 0).has t = true
    ↔ ∃ p ∈ g.productions, p.rule = r ∧ p.symbols.toList.head? = some (.token t)
  forced : ∀ {r t}, (g.forced.getD r 0).has t = true →
    ∃ pair ∈ forced, n.names.idxOf pair.1 = r ∧ n.tokens.idxOf pair.2 = t

section OfRules

variable [BEq τ] [LawfulBEq τ] [BEq ν] [LawfulBEq ν] {finish : τ} {rules : List (ν × Rule τ ν)}

theorem rule_lt_ruleCount (hr : Sensible finish rules) {p : Production}
    (hp : p ∈ (Numbering.ofRules finish rules).productions rules) :
  p.rule < (Numbering.ofRules finish rules).ruleCount + 1
  := by
  obtain ⟨whole, _⟩ | ⟨s, hs, of⟩ := Spelling.exists_of_mem hr hp
  · rw [whole]
    apply Nat.lt_succ_self
  · have known := (Spelling.known_of_mem hr hs List.mem_cons_self).1
    exact Nat.lt_succ_of_lt (known.rule_lt of.head.symm)

/-- Rows of known parts have different symbols. -/
theorem Numbering.map_symbol_inj {n : Numbering τ ν} {row row' : List (Part τ ν)}
    (h : ∀ part ∈ row, n.Known part) (h' : ∀ part ∈ row', n.Known part)
    (same : row.map n.symbol = row'.map n.symbol) :
  row = row'
  := by
  induction row generalizing row' with
  | nil => exact (List.map_eq_nil_iff.mp same.symm).symm
  | cons part row ih =>
    obtain ⟨part', rest, rfl, first, others⟩ := List.map_eq_cons_iff.mp same.symm
    obtain ⟨known, knownRow⟩ := List.forall_mem_cons.mp h
    obtain ⟨known', knownRow'⟩ := List.forall_mem_cons.mp h'
    rw [(symbol_inj known known').mp first.symm, ih knownRow knownRow' others.symm]

/-- The productions of a rule differ in their symbols. -/
def Apart (ps : List Production) (r : Nat) : Prop :=
  ps.Pairwise fun p q => p.rule = r → q.rule = r → p.symbols.toList ≠ q.symbols.toList

/-- A rule and symbols tell the number of a production. -/
theorem Apart.unique {ps : List Production} {r m m' : Nat} {p q : Production} (h : Apart ps r)
    (hm : ps[m]? = some p) (hm' : ps[m']? = some q) (hp : p.rule = r) (hq : q.rule = r)
    (same : p.symbols.toList = q.symbols.toList) :
  m = m'
  := by
  obtain ⟨lt, rfl⟩ := List.getElem?_eq_some_iff.mp hm
  obtain ⟨lt', rfl⟩ := List.getElem?_eq_some_iff.mp hm'
  obtain before | rfl | behind := Nat.lt_trichotomy m m'
  · exact absurd same (List.pairwise_iff_getElem.mp h m m' lt lt' before hp hq)
  · rfl
  · exact absurd same.symm (List.pairwise_iff_getElem.mp h m' m lt' lt behind hq hp)

theorem apart_flatMap {α : Type} {xs : List α} {f : α × Nat → List Production} {r : Nat} {k : Nat}
    (rule : ∀ x ∈ xs.zipIdx, ∀ p ∈ f x, p.rule = k + x.2)
    (apart : ∀ x ∈ xs.zipIdx, k + x.2 = r → Apart (f x) r) :
  Apart (xs.zipIdx.flatMap f) r
  := by
  rw [Apart, List.pairwise_flatMap]
  constructor
  · intro x hx
    by_cases here : k + x.2 = r
    · exact apart x hx here
    · apply List.pairwise_of_forall_mem_list
      intro p hp q _ same
      exact absurd ((rule x hx p hp).symm.trans same) here
  · have indices : (xs.zipIdx.map Prod.snd).Nodup := by
      rw [List.zipIdx_map_snd]
      exact List.nodup_range'
    apply (List.pairwise_map.mp indices).imp_of_mem
    intro x y hx hy ne p hp q hq same same'
    rw [rule x hx p hp] at same
    rw [rule y hy q hq] at same'
    omega

omit [LawfulBEq τ] [LawfulBEq ν] in
theorem Numbering.rule_of_mem_productionsOf {n : Numbering τ ν} {r : Nat}
    {alternatives : List (Alternative τ ν)} {p : Production}
    (hp : p ∈ n.productionsOf r alternatives) :
  p.rule = r
  := by
  obtain ⟨a, _, rfl⟩ := List.mem_map.mp hp
  rfl

omit [LawfulBEq τ] [LawfulBEq ν] in
theorem Numbering.rule_of_mem_repetitionProductions {n : Numbering τ ν} {r : Nat}
    {alternatives : List (Alternative τ ν)} {p : Production}
    (hp : p ∈ n.repetitionProductions r alternatives) :
  p.rule = r
  := by
  obtain ⟨a, _, hp⟩ := List.mem_flatMap.mp hp
  simp only [List.mem_cons, List.not_mem_nil, or_false] at hp
  obtain rfl | rfl := hp <;> rfl

omit [LawfulBEq τ] [LawfulBEq ν] in
/-- The productions of named rules have the first numbers. -/
theorem rule_lt_of_named {n : Numbering τ ν} (names : rules.length = n.names.length) {p : Production}
    (hp : p ∈ rules.zipIdx.flatMap fun x => n.productionsOf x.2 x.1.2.alternatives) :
  p.rule < n.names.length
  := by
  obtain ⟨⟨⟨name, rule⟩, k⟩, hx, hp⟩ := List.mem_flatMap.mp hp
  rw [Numbering.rule_of_mem_productionsOf hp, ← names]
  exact (List.getElem?_eq_some_iff.mp (List.mem_zipIdx_iff_getElem?.mp hx)).1

omit [LawfulBEq τ] [LawfulBEq ν] in
/-- The productions of repetitions have numbers between those of named rules and that of the whole
text. -/
theorem rule_bounds_of_repeated {n : Numbering τ ν} {p : Production}
    (hp : p ∈ n.repeated.zipIdx.flatMap fun x =>
      n.repetitionProductions (n.names.length + x.2) x.1.alternatives) :
  n.names.length ≤ p.rule ∧ p.rule < n.ruleCount
  := by
  obtain ⟨⟨rule, k⟩, hx, hp⟩ := List.mem_flatMap.mp hp
  have lt := (List.getElem?_eq_some_iff.mp (List.mem_zipIdx_iff_getElem?.mp hx)).1
  rw [Numbering.rule_of_mem_repetitionProductions hp, Numbering.ruleCount]
  omega

omit [LawfulBEq τ] [LawfulBEq ν] in
theorem apart_productions {n : Numbering τ ν} (names : rules.length = n.names.length) {r : Nat}
    (named : ∀ name rule, rules[r]? = some (name, rule) → Apart (n.productionsOf r rule.alternatives) r)
    (repeated : ∀ k rule, n.repeated[k]? = some rule → n.names.length + k = r →
      Apart (n.repetitionProductions r rule.alternatives) r) :
  Apart (n.productions rules) r
  := by
  rw [Apart, Numbering.productions, List.pairwise_append, List.pairwise_append]
  refine ⟨⟨?_, ?_, ?_⟩, List.pairwise_singleton _ _, ?_⟩
  · apply apart_flatMap (k := 0)
    · rintro ⟨⟨name, rule⟩, k⟩ hx p hp
      rw [Numbering.rule_of_mem_productionsOf hp, Nat.zero_add]
    · rintro ⟨⟨name, rule⟩, k⟩ hx here
      obtain rfl : k = r := by simpa using here
      exact named name rule (List.mem_zipIdx_iff_getElem?.mp hx)
  · apply apart_flatMap (k := n.names.length)
    · rintro ⟨rule, k⟩ hx p hp
      apply Numbering.rule_of_mem_repetitionProductions hp
    · rintro ⟨rule, k⟩ hx here
      subst here
      exact repeated k rule (List.mem_zipIdx_iff_getElem?.mp hx) rfl
  · intro p hp q hq same same'
    have := rule_lt_of_named names hp
    have := rule_bounds_of_repeated hq
    omega
  · intro p hp q hq same same'
    obtain rfl := List.mem_singleton.mp hq
    have lt : p.rule < n.ruleCount := by
      obtain hp | hp := List.mem_append.mp hp
      · exact Nat.lt_add_right _ (rule_lt_of_named names hp)
      · exact (rule_bounds_of_repeated hp).2
    have whole : n.wholeProduction.rule = n.ruleCount := rfl
    omega

theorem apart_map {n : Numbering τ ν} {rows : List (List (Part τ ν))} {ps : List Production}
    (known : ∀ row ∈ rows, ∀ part ∈ row, n.Known part) (differ : rows.Nodup)
    (same : ps.map (·.symbols.toList) = rows.map (List.map n.symbol)) (r : Nat) :
  Apart ps r
  := by
  have symbols : (ps.map (·.symbols.toList)).Nodup := by
    rw [same, List.Nodup, List.pairwise_map]
    apply differ.imp_of_mem
    intro row row' h h' ne same
    exact ne (Numbering.map_symbol_inj (known row h) (known row' h') same)
  exact (List.pairwise_map.mp symbols).imp fun ne _ _ => ne

/-- The productions of a named rule differ if its alternatives do. -/
theorem apart_named (hr : Sensible finish rules) {name : ν} {rule : Rule τ ν}
    (mem : (name, rule) ∈ rules) (differ : (rule.alternatives.map (·.parts)).Nodup) :
  Apart ((Numbering.ofRules finish rules).productions rules)
    ((Numbering.ofRules finish rules).names.idxOf name)
  := by
  obtain ⟨r, here⟩ := List.mem_iff_getElem?.mp mem
  rw [Numbering.idxOf_of_getElem? hr here]
  apply apart_productions (by simp [Numbering.ofRules])
  · intro name' rule' h
    obtain ⟨rfl, rfl⟩ := Prod.mk.inj (Option.some.inj (h.symm.trans here))
    refine apart_map (n := .ofRules finish rules) ?_ differ (by simp [Numbering.productionsOf]) r
    intro row hrow part hp
    obtain ⟨a, ha, rfl⟩ := List.mem_map.mp hrow
    exact (Numbering.known_of_mem hr mem (Rule.uses_of_alternative _ ha hp)).1
  · intro k _ _ same
    have := (List.getElem?_eq_some_iff.mp here).1
    have names : (Numbering.ofRules finish rules).names.length = rules.length := by
      simp [Numbering.ofRules]
    omega

/-- The productions of a repetition differ if its spellings do. -/
theorem apart_repeated (hr : Sensible finish rules) {rule : Rule τ ν}
    (mem : rule ∈ (Numbering.ofRules finish rules).repeated)
    (differ : ((Spelling.ofRepeated rule).map (·.row)).Nodup) :
  Apart ((Numbering.ofRules finish rules).productions rules)
    ((Numbering.ofRules finish rules).names.length
      + (Numbering.ofRules finish rules).repeated.idxOf rule)
  := by
  obtain ⟨k, there⟩ := List.mem_iff_getElem?.mp mem
  rw [Numbering.idxOf_of_repeated there]
  have names : (Numbering.ofRules finish rules).names.length = rules.length := by
    simp [Numbering.ofRules]
  apply apart_productions names.symm
  · intro name' rule' h
    have := (List.getElem?_eq_some_iff.mp h).1
    omega
  · intro k' rule' h same
    obtain rfl : k' = k := by omega
    obtain rfl := Option.some.inj (h.symm.trans there)
    have symbol : (Numbering.ofRules finish rules).symbol (.repeated rule')
        = .rule ((Numbering.ofRules finish rules).names.length + k') := by
      rw [Numbering.symbol, Numbering.idxOf_of_repeated there]
    refine apart_map (n := .ofRules finish rules) ?_ differ ?_ _
    · intro row hrow part hp
      obtain ⟨s, hs, rfl⟩ := List.mem_map.mp hrow
      obtain ⟨a, ha, hs⟩ := List.mem_flatMap.mp hs
      have inside : part ∈ a.parts → (Numbering.ofRules finish rules).Known part :=
        fun hp => (Numbering.known_of_repeated hr mem (Rule.uses_of_alternative _ ha hp)).1
      simp only [List.mem_cons, List.not_mem_nil, or_false] at hs
      obtain rfl | rfl := hs
      · obtain rfl | hp := List.mem_cons.mp hp
        · exact mem
        · exact inside hp
      · exact inside hp
    · simp [Numbering.repetitionProductions, Spelling.ofRepeated, List.map_flatMap, symbol]

/-- A grammar that is made from rules is compiled from their spellings. -/
theorem compiled_ofRules (hr : Sensible finish rules) (forced : List (ν × τ)) :
  Compiled (ofRules finish rules forced) (.ofRules finish rules) finish (Spelling.ofRules rules) forced
  := by
  constructor
  case rules => rfl
  case tokens => rfl
  case finish => exact mem_distinct.mpr List.mem_cons_self
  case whole =>
    obtain ⟨⟨name, rule⟩, rest, rfl⟩ := List.exists_cons_of_ne_nil hr.inhabited
    refine ⟨name, hr.named name, ?_⟩
    rw [Numbering.symbol, Numbering.idxOf_of_getElem? hr (r := 0) rfl]
  case spelled =>
    intro p hp
    apply Spelling.exists_of_mem hr (List.mem_toArray.mp hp)
  case production =>
    intro s hs
    obtain ⟨p, hp, of⟩ := Spelling.exists_production hr hs
    exact ⟨p, List.mem_toArray.mpr hp, of⟩
  case known =>
    intro s hs part hp
    exact (Spelling.known_of_mem hr hs hp).1
  case nodup =>
    intro symbol
    cases symbol with
    | token t => apply nodup_collectByFirst
    | rule r => apply nodup_collectByFirst
  case starting =>
    intro part known m p hm first
    rw [List.head?_eq_getElem?, Array.getElem?_toList] at first
    cases symbol : (Numbering.ofRules finish rules).symbol part with
    | token t =>
      rw [symbol] at first
      exact mem_collectByFirst.mpr ⟨known.token_lt symbol, p, _, hm, first, rfl⟩
    | rule r =>
      rw [symbol] at first
      exact mem_collectByFirst.mpr ⟨Nat.lt_succ_of_lt (known.rule_lt symbol), p, _, hm, first, rfl⟩
  case firsts =>
    intro t W closed r h
    refine of_has_collectFirsts closed _ ?_ h
    intro r h
    rw [getD_replicate, TokenSet.not_has_zero] at h
    contradiction
  case stems =>
    intro r lead h
    apply stems_of_mem_collectLeads h
  case tells =>
    intro p hp lead h
    apply tells_collectLeads hp (rule_lt_ruleCount hr (List.mem_toArray.mp hp)) h
  case openings =>
    intro r t
    refine has_collectOpenings.trans ⟨And.right, ?_⟩
    rintro ⟨p, hp, rfl, first⟩
    exact ⟨rule_lt_ruleCount hr (List.mem_toArray.mp hp), p, hp, rfl, first⟩
  case forced => apply of_has_forced

end OfRules

/-- The number is the one of a rule among the given parts. -/
def Numbering.Numbers [BEq τ] [BEq ν] (n : Numbering τ ν) (R : Part τ ν → Prop) (r : Nat) : Prop :=
  ∃ part, n.Known part ∧ n.symbol part = .rule r ∧ R part

theorem Numbering.numbers_iff [BEq τ] [LawfulBEq τ] [BEq ν] [LawfulBEq ν] {n : Numbering τ ν}
    {R : Part τ ν → Prop} {part : Part τ ν} {r : Nat} (known : n.Known part)
    (symbol : n.symbol part = .rule r) :
  n.Numbers R r ↔ R part
  := by
  constructor
  · rintro ⟨part', known', same, h⟩
    obtain rfl := (symbol_inj known known').mp (symbol.trans same.symm)
    exact h
  · exact fun h => ⟨part, known, symbol, h⟩

namespace Compiled

variable [BEq τ] [LawfulBEq τ] [BEq ν] [LawfulBEq ν] {g : Grammar τ ν} {n : Numbering τ ν}
  {finish : τ} {spellings : List (Spelling τ ν)} {forced : List (ν × τ)}
  (hg : Compiled g n finish spellings forced)
include hg

omit [LawfulBEq τ] [LawfulBEq ν] in
/-- The symbols of productions have numbers. -/
theorem exists_known {p : Production} (hp : p ∈ g.productions) {symbol : Symbol}
    (h : symbol ∈ p.symbols) :
  ∃ part, n.Known part ∧ n.symbol part = symbol
  := by
  rw [← Array.mem_toList_iff] at h
  obtain ⟨_, row⟩ | ⟨s, hs, of⟩ := hg.spelled hp
  · rw [row] at h
    obtain rfl := List.mem_singleton.mp h
    obtain ⟨name, known, same⟩ := hg.whole
    exact ⟨_, known, same⟩
  · rw [of.row] at h
    obtain ⟨part, hp, same⟩ := List.mem_map.mp h
    exact ⟨part, hg.known hs (List.mem_cons_of_mem _ hp), same⟩

/-- A production of a part is one of its spellings. -/
theorem exists_spelling {p : Production} (hp : p ∈ g.productions) {part : Part τ ν}
    (known : n.Known part) (symbol : n.symbol part = .rule p.rule) :
  ∃ s ∈ spellings, s.head = part ∧ s.Of n p
  := by
  obtain ⟨number, _⟩ | ⟨s, hs, of⟩ := hg.spelled hp
  · exact absurd (known.rule_lt symbol) (number ▸ Nat.lt_irrefl _)
  · refine ⟨s, hs, ?_, of⟩
    rw [← Numbering.symbol_inj (hg.known hs List.mem_cons_self) known, symbol, ← of.head]

omit [LawfulBEq ν] in
theorem token_lt {p : Production} (hp : p ∈ g.productions) {t : Nat} (ht : .token t ∈ p.symbols) :
  t < g.tokens.size
  := by
  obtain ⟨part, known, same⟩ := hg.exists_known hp ht
  rw [hg.tokens]
  exact known.token_lt same

theorem rule_lt {p : Production} (hp : p ∈ g.productions) {r : Nat} (hr : .rule r ∈ p.symbols) :
  r < g.ruleCount
  := by
  obtain ⟨part, known, same⟩ := hg.exists_known hp hr
  rw [hg.rules]
  exact Nat.lt_succ_of_lt (known.rule_lt same)

omit [LawfulBEq ν] in
/-- What begins a symbol of a production is a token of the grammar. -/
theorem lt_of_has_beginning {p : Production} (hp : p ∈ g.productions) {s : Symbol}
    (hs : s ∈ p.symbols) {t : Nat} (ht : (beginning g.firsts s).has t = true) :
  t < g.tokens.size
  := by
  cases s with
  | token t' =>
    rw [beginning, TokenSet.has_single, decide_eq_true_eq] at ht
    exact ht ▸ hg.token_lt hp hs
  | rule r =>
    refine hg.firsts (W := fun _ => t < g.tokens.size) ?_ ht
    rintro q hq s first (rfl | ⟨_, _, lt⟩)
    · exact hg.token_lt hq (Array.mem_toList_iff.mp (List.mem_of_head? first))
    · exact lt

theorem closed (hf : ∀ pair ∈ forced, n.Known (.token pair.2)) :
  g.Closed
  := by
  constructor
  case inhabited =>
    rw [hg.tokens]
    exact List.length_pos_of_mem hg.finish
  case rules => exact fun p hp r hr => hg.rule_lt hp hr
  case begins => exact fun p hp s hs t ht => hg.lt_of_has_beginning hp hs ht
  case leads =>
    intro r lead hl
    constructor
    · obtain ⟨p, hp, _, first⟩ := (hg.stems hl).first
      exact hg.rule_lt hp (Array.mem_toList_iff.mp (List.mem_of_head? first))
    · intro t ht
      obtain ⟨p, hp, _, r', s, rest, row, has⟩ := (hg.stems hl).behind t ht
      have second : s ∈ p.symbols := by
        rw [← Array.mem_toList_iff, row]
        simp
      exact hg.lt_of_has_beginning hp second has
  case forced =>
    intro r t ht
    obtain ⟨pair, hp, _, rfl⟩ := hg.forced ht
    rw [hg.tokens]
    exact (hf pair hp).token_lt rfl

section LeftClosed

variable {W : Part τ ν → Prop} {t : τ} (ht : n.Known (.token t))
  (closed : Spelling.LeftClosed spellings t W)
include ht closed

theorem leftClosed :
  LeftClosed g.productions (n.tokens.idxOf t) fun r => r = n.ruleCount ∨ n.Numbers W r
  := by
  intro p hp symbol first begins
  obtain ⟨number, _⟩ | ⟨s, hs, of⟩ := hg.spelled hp
  · exact .inl number
  · rw [of.row, List.head?_map, Option.map_eq_some_iff] at first
    obtain ⟨part, first, rfl⟩ := first
    have known := hg.known hs (List.mem_cons_of_mem _ (List.mem_of_head? first))
    refine .inr ⟨s.head, hg.known hs List.mem_cons_self, of.head.symm, closed s hs part first ?_⟩
    obtain token | ⟨r, rule, whole | numbers⟩ := begins
    · exact .inl ((Numbering.symbol_inj known ht).mp token)
    · exact absurd (known.rule_lt rule) (whole ▸ Nat.lt_irrefl _)
    · exact .inr ((Numbering.numbers_iff known rule).mp numbers)

/-- A token begins only parts to which it leads. -/
theorem of_has_beginning {part : Part τ ν} (hp : n.Known part)
    (h : (beginning g.firsts (n.symbol part)).has (n.tokens.idxOf t) = true) :
  part = .token t ∨ W part
  := by
  cases symbol : n.symbol part with
  | token t' =>
    rw [symbol, beginning, TokenSet.has_single, decide_eq_true_eq] at h
    left
    rw [← Numbering.symbol_inj hp ht, symbol, ← h]
    rfl
  | rule r =>
    rw [symbol] at h
    obtain whole | numbers := hg.firsts (hg.leftClosed ht closed) h
    · exact absurd (hp.rule_lt symbol) (whole ▸ Nat.lt_irrefl _)
    · exact .inr ((Numbering.numbers_iff hp symbol).mp numbers)

/-- A derived tree that starts with a token is one of the parts to which the token leads. -/
theorem of_head?_leaves {tree : Tree} (h : Derives g tree) {part : Part τ ν} (hp : n.Known part)
    (symbol : tree.symbol = n.symbol part)
    (first : tree.leaves.head?.map Leaf.token = some (n.tokens.idxOf t)) :
  part = .token t ∨ W part
  := by
  induction h generalizing part with
  | leaf token start stop =>
    left
    rw [← Numbering.symbol_inj hp ht, ← symbol]
    exact congrArg _ (Option.some.inj first)
  | @node p place children mem row inhabited derived ih =>
    obtain ⟨child, rest, rfl⟩ := List.exists_cons_of_ne_nil inhabited
    have inside := List.mem_cons_self (a := child) (l := rest)
    rw [Tree.leaves_ofChildren, Tree.leavesAll,
      List.head?_append_of_ne_nil _ (derived child inside).leaves_ne_nil] at first
    obtain ⟨number, _⟩ | ⟨s, hs, of⟩ := hg.spelled mem
    · exact absurd (hp.rule_lt symbol.symm) (number ▸ Nat.lt_irrefl _)
    · rw [of.row] at row
      obtain ⟨part', parts, spelling, same, _⟩ := List.map_eq_cons_iff.mp row.symm
      have begins : s.row.head? = some part' := by rw [spelling, List.head?_cons]
      have known := hg.known hs (List.mem_cons_of_mem _ (List.mem_of_head? begins))
      have head : part = s.head := by
        rw [← Numbering.symbol_inj hp (hg.known hs List.mem_cons_self), ← symbol, ← of.head,
          Tree.symbol_ofChildren]
      right
      rw [head]
      exact closed s hs part' begins (ih child inside known same.symm first)

end LeftClosed

/-- Parts that lead only to one another, and to the given tokens behind the leads. -/
theorem leading {R : Part τ ν → Prop} {T : Nat → Prop}
    (rule : ∀ s ∈ spellings, R s.head → ∀ first rest r, s.row = first :: rest →
      n.symbol first = .rule r → R first)
    (behind : ∀ s ∈ spellings, R s.head → ∀ first second rest r, s.row = first :: second :: rest →
      n.symbol first = .rule r → ∀ t, (beginning g.firsts (n.symbol second)).has t = true → T t)
    (named : ∀ pair ∈ forced, n.Known (.named pair.1))
    (allowed : ∀ pair ∈ forced, R (.named pair.1) → T (n.tokens.idxOf pair.2)) :
  Outlook.Leading g (n.Numbers R) T
  := by
  constructor
  · rintro r ⟨part, known, symbol, hr⟩ lead hl
    obtain ⟨p, hp, rfl, first⟩ := (hg.stems hl).first
    obtain ⟨s, hs, rfl, of⟩ := hg.exists_spelling hp known symbol
    rw [of.row, List.head?_map, Option.map_eq_some_iff] at first
    obtain ⟨part, first, same⟩ := first
    obtain ⟨rest, row⟩ := List.head?_eq_some_iff.mp first
    have known := hg.known hs (List.mem_cons_of_mem _ (List.mem_of_head? first))
    exact ⟨part, known, same, rule s hs hr part rest _ row same⟩
  · rintro r ⟨part, known, symbol, hr⟩ lead hl t ht
    obtain ⟨p, hp, rfl, r', second, rest, row, has⟩ := (hg.stems hl).behind t ht
    obtain ⟨s, hs, rfl, of⟩ := hg.exists_spelling hp known symbol
    rw [of.row] at row
    obtain ⟨part, _, spelling, same, row⟩ := List.map_eq_cons_iff.mp row
    obtain ⟨part', _, rfl, same', _⟩ := List.map_eq_cons_iff.mp row
    exact behind s hs hr part part' _ r' spelling same t (same' ▸ has)
  · rintro r ⟨part, known, symbol, hr⟩ t ht
    obtain ⟨pair, hp, rfl, rfl⟩ := hg.forced ht
    obtain rfl := (Numbering.symbol_inj known (named pair hp)).mp symbol
    exact allowed pair hp hr

end Compiled

end Grammar

end SourceAtlas.Parsing
