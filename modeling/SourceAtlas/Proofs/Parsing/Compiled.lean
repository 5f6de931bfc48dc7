import SourceAtlas.Proofs.Parsing.Closure

/-!
# Grammars made from rules

The productions of a grammar come from the alternatives of rules. A row of trees is spelled by a rule
if it is what the rule stands for, with a tree of its own for every token, named rule and repetition
(`Rule.Spells`). A derived tree of a named rule is spelled by that rule (`Derives.spells`), and one of
a repetition holds rows that are spelled by the repeated rule one after the other
(`Derives.repeats`).
-/

namespace SourceAtlas.Parsing

variable {τ ν : Type}

/-! ### Equality of rules -/

namespace Rule

mutual

theorem same_iff [BEq τ] [LawfulBEq τ] [BEq ν] [LawfulBEq ν] :
  ∀ r r' : Rule τ ν, same r r' = true ↔ r = r'
  | token t, r' => by cases r' <;> simp [same]
  | named n, r' => by cases r' <;> simp [same]
  | seq rs, r' => by
    cases r' with
    | seq rs' => simp [same, sameAll_iff rs rs']
    | _ => simp [same]
  | choice rs, r' => by
    cases r' with
    | choice rs' => simp [same, sameAll_iff rs rs']
    | _ => simp [same]
  | many1 r, r' => by
    cases r' with
    | many1 r' => simp [same, same_iff r r']
    | _ => simp [same]
  | ranked n s r, r' => by
    cases r' with
    | ranked n' s' r' => simp [same, same_iff r r', and_assoc]
    | _ => simp [same]

theorem sameAll_iff [BEq τ] [LawfulBEq τ] [BEq ν] [LawfulBEq ν] : ∀ rs rs' : List (Rule τ ν),
    sameAll rs rs' = true ↔ rs = rs'
  | [], rs' => by cases rs' <;> simp [sameAll]
  | r :: rs, rs' => by
    cases rs' with
    | nil => simp [sameAll]
    | cons r' rs' => simp [sameAll, same_iff r r', sameAll_iff rs rs']

end

instance [BEq τ] [LawfulBEq τ] [BEq ν] [LawfulBEq ν] : LawfulBEq (Rule τ ν) where
  rfl := (same_iff _ _).mpr rfl
  eq_of_beq := (same_iff _ _).mp

/-! ### What a rule uses -/

/-- A part of a rule: its tokens and the rules that are repeated in it. -/
def Uses (r : Rule τ ν) : Part τ ν → Prop
  | .token t => t ∈ r.tokens
  | .named _ => True
  | .repeated rule => rule ∈ r.repetitions

theorem mem_listTokens {rs : List (Rule τ ν)} {t : τ} :
  t ∈ listTokens rs ↔ ∃ r ∈ rs, t ∈ r.tokens
  := by
  induction rs with
  | nil => simp [listTokens]
  | cons r rs ih => simp [listTokens, ih]

theorem mem_listRepetitions {rs : List (Rule τ ν)} {rule : Rule τ ν} :
  rule ∈ listRepetitions rs ↔ ∃ r ∈ rs, rule ∈ r.repetitions
  := by
  induction rs with
  | nil => simp [listRepetitions]
  | cons r rs ih => simp [listRepetitions, ih]

theorem uses_of_mem {rs : List (Rule τ ν)} {part : Part τ ν} (h : ∃ r ∈ rs, r.Uses part) :
  (seq rs).Uses part ∧ (choice rs).Uses part
  := by
  obtain ⟨r, hr, uses⟩ := h
  cases part with
  | token t => exact ⟨mem_listTokens.mpr ⟨r, hr, uses⟩, mem_listTokens.mpr ⟨r, hr, uses⟩⟩
  | named name => exact ⟨trivial, trivial⟩
  | repeated rule =>
    exact ⟨mem_listRepetitions.mpr ⟨r, hr, uses⟩, mem_listRepetitions.mpr ⟨r, hr, uses⟩⟩

mutual

/-- The parts of the alternatives of a rule are used by it. -/
theorem uses_of_alternative : ∀ (r : Rule τ ν) {a : Alternative τ ν} {part : Part τ ν},
    a ∈ r.alternatives → part ∈ a.parts → r.Uses part
  | token t, a, part, ha, hp => by
    obtain rfl := List.mem_singleton.mp ha
    obtain rfl := List.mem_singleton.mp hp
    exact List.mem_singleton.mpr rfl
  | named name, a, part, ha, hp => by
    obtain rfl := List.mem_singleton.mp ha
    obtain rfl := List.mem_singleton.mp hp
    trivial
  | seq rs, a, part, ha, hp => (uses_of_mem (uses_of_rowAlternative rs ha hp)).1
  | choice rs, a, part, ha, hp => (uses_of_mem (uses_of_choiceAlternative rs ha hp)).2
  | many1 r, a, part, ha, hp => by
    obtain rfl := List.mem_singleton.mp ha
    obtain rfl := List.mem_singleton.mp hp
    exact List.mem_append_right _ (List.mem_singleton.mpr rfl)
  | ranked rank side r, a, part, ha, hp => by
    obtain ⟨b, hb, rfl⟩ := List.mem_map.mp ha
    have uses := uses_of_alternative r hb hp
    cases part <;> exact uses

theorem uses_of_rowAlternative : ∀ (rs : List (Rule τ ν)) {a : Alternative τ ν} {part : Part τ ν},
    a ∈ rowAlternatives rs → part ∈ a.parts → ∃ r ∈ rs, r.Uses part
  | [], a, part, ha, hp => by
    obtain rfl := List.mem_singleton.mp ha
    contradiction
  | r :: rs, a, part, ha, hp => by
    obtain ⟨b, hb, ha⟩ := List.mem_flatMap.mp ha
    obtain ⟨c, hc, rfl⟩ := List.mem_map.mp ha
    obtain hp | hp := List.mem_append.mp hp
    · exact ⟨r, List.mem_cons_self, uses_of_alternative r hb hp⟩
    · obtain ⟨r', hr, uses⟩ := uses_of_rowAlternative rs hc hp
      exact ⟨r', List.mem_cons_of_mem _ hr, uses⟩

theorem uses_of_choiceAlternative : ∀ (rs : List (Rule τ ν)) {a : Alternative τ ν}
    {part : Part τ ν}, a ∈ choiceAlternatives rs → part ∈ a.parts → ∃ r ∈ rs, r.Uses part
  | [], a, part, ha, hp => by contradiction
  | r :: rs, a, part, ha, hp => by
    obtain ha | ha := List.mem_append.mp ha
    · exact ⟨r, List.mem_cons_self, uses_of_alternative r ha hp⟩
    · obtain ⟨r', hr, uses⟩ := uses_of_choiceAlternative rs ha hp
      exact ⟨r', List.mem_cons_of_mem _ hr, uses⟩

end

mutual

/-- What a repeated rule uses is used by the rule in which it is repeated. -/
theorem uses_of_repetition : ∀ (r : Rule τ ν) {rule : Rule τ ν} {part : Part τ ν},
    rule ∈ r.repetitions → rule.Uses part → r.Uses part
  | token t, rule, part, h, uses => by contradiction
  | named name, rule, part, h, uses => by contradiction
  | seq rs, rule, part, h, uses => (uses_of_mem (uses_of_listRepetition rs h uses)).1
  | choice rs, rule, part, h, uses => (uses_of_mem (uses_of_listRepetition rs h uses)).2
  | many1 r, rule, part, h, uses => by
    have inside : r.Uses part := by
      obtain h | h := List.mem_append.mp h
      · exact uses_of_repetition r h uses
      · obtain rfl := List.mem_singleton.mp h
        exact uses
    cases part with
    | token t => exact inside
    | named name => trivial
    | repeated rule => exact List.mem_append_left _ inside
  | ranked rank side r, rule, part, h, uses => by
    have inside := uses_of_repetition r h uses
    cases part <;> exact inside

theorem uses_of_listRepetition : ∀ (rs : List (Rule τ ν)) {rule : Rule τ ν} {part : Part τ ν},
    rule ∈ listRepetitions rs → rule.Uses part → ∃ r ∈ rs, r.Uses part
  | [], rule, part, h, uses => by contradiction
  | r :: rs, rule, part, h, uses => by
    obtain h | h := List.mem_append.mp h
    · exact ⟨r, List.mem_cons_self, uses_of_repetition r h uses⟩
    · obtain ⟨r', hr, uses'⟩ := uses_of_listRepetition rs h uses
      exact ⟨r', List.mem_cons_of_mem _ hr, uses'⟩

end

end Rule

/-! ### Numbers -/

namespace Grammar

section Distinct

variable {α : Type} [BEq α] [LawfulBEq α] {x : α}

theorem mem_distinct {xs : List α} :
  x ∈ distinct xs ↔ x ∈ xs
  := by
  suffices h : ∀ seen : List α,
      x ∈ xs.foldl (fun seen y => if seen.contains y then seen else y :: seen) seen
        ↔ x ∈ seen ∨ x ∈ xs by
    rw [distinct, List.mem_reverse, h]
    simp
  induction xs with
  | nil => simp
  | cons y xs ih =>
    intro seen
    rw [List.foldl_cons, ih]
    split
    · next known =>
      have := List.contains_iff_mem.mp known
      grind
    · grind

theorem nodup_distinct (xs : List α) :
  (distinct xs).Nodup
  := by
  rw [distinct, List.nodup_reverse]
  apply List.foldlRecOn (motive := fun seen : List α => seen.Nodup)
  · apply List.nodup_nil
  · intro seen nodup y _
    split
    · exact nodup
    · next new =>
      rw [List.contains_iff_mem] at new
      exact List.nodup_cons.mpr ⟨new, nodup⟩

/-- The first member comes first. -/
theorem head?_distinct (x : α) (xs : List α) :
  (distinct (x :: xs)).head? = some x
  := by
  rw [distinct, List.head?_reverse, List.foldl_cons]
  apply List.foldlRecOn (motive := fun seen : List α => seen.getLast? = some x)
  · simp
  · intro seen last y _
    split
    · exact last
    · rw [List.getLast?_cons, last]
      rfl

end Distinct

namespace Numbering

variable [BEq τ] [LawfulBEq τ] [BEq ν] [LawfulBEq ν]

/-- The part has a number. -/
def Known (n : Numbering τ ν) : Part τ ν → Prop
  | .token t => t ∈ n.tokens
  | .named name => name ∈ n.names
  | .repeated rule => rule ∈ n.repeated

omit [BEq τ] [LawfulBEq τ] [BEq ν] [LawfulBEq ν] in
theorem known_repeated {n : Numbering τ ν} {rule : Rule τ ν} (h : rule ∈ n.repeated) :
  n.Known (.repeated rule)
  := h

/-- Known parts have different symbols. -/
theorem symbol_inj {n : Numbering τ ν} {part part' : Part τ ν} (h : n.Known part)
    (h' : n.Known part') :
  n.symbol part = n.symbol part' ↔ part = part'
  := by
  have short : ∀ name ∈ n.names, n.names.idxOf name < n.names.length :=
    fun name => List.idxOf_lt_length_iff.mpr
  constructor
  · intro same
    cases part <;> cases part' <;> simp only [symbol, Symbol.token.injEq, Symbol.rule.injEq,
      reduceCtorEq, Nat.add_left_cancel_iff] at same
    · exact congrArg _ ((List.idxOf_inj h).mp same)
    · exact congrArg _ ((List.idxOf_inj h).mp same)
    · have := short _ h
      omega
    · have := short _ h'
      omega
    · exact congrArg _ ((List.idxOf_inj h).mp same)
  · rintro rfl
    rfl

end Numbering

/-! ### Productions -/

/-- Rules from which a grammar is made: every name has one rule, and no rule asks for the end of the
text. -/
structure Sensible (finish : τ) (rules : List (ν × Rule τ ν)) : Prop where
  inhabited : rules ≠ []
  nodup : (rules.map (·.1)).Nodup
  named : ∀ name, name ∈ rules.map (·.1)
  finish : ∀ named ∈ rules, finish ∉ named.2.tokens

namespace Numbering

variable [BEq τ] [LawfulBEq τ] [BEq ν] [LawfulBEq ν] {finish : τ} {rules : List (ν × Rule τ ν)}
  {p : Production}

omit [LawfulBEq τ] [LawfulBEq ν] in
theorem mem_productions {n : Numbering τ ν} :
  p ∈ n.productions rules
    ↔ (∃ r name rule, rules[r]? = some (name, rule) ∧ p ∈ n.productionsOf r rule.alternatives)
      ∨ (∃ r rule, n.repeated[r]? = some rule
        ∧ p ∈ n.repetitionProductions (n.names.length + r) rule.alternatives)
      ∨ p = n.wholeProduction
  := by
  simp only [productions, List.mem_append, List.mem_flatMap, List.mem_zipIdx_iff_getElem?,
    Prod.exists, List.mem_singleton, or_assoc]
  grind

omit [LawfulBEq τ] [LawfulBEq ν] in
theorem known_named (hr : Sensible finish rules) (name : ν) :
  (ofRules finish rules).Known (.named name)
  := hr.named name

/-- What a rule uses has a number and is not the end of the text. -/
theorem known_of_mem (hr : Sensible finish rules) {name : ν} {rule : Rule τ ν}
    (h : (name, rule) ∈ rules) {part : Part τ ν} (uses : rule.Uses part) :
  (ofRules finish rules).Known part ∧ part ≠ .token finish
  := by
  cases part with
  | token t =>
    refine ⟨mem_distinct.mpr (List.mem_cons_of_mem _ (List.mem_flatMap.mpr ⟨_, h, uses⟩)), ?_⟩
    rintro ⟨⟩
    exact hr.finish _ h uses
  | named name => exact ⟨hr.named name, nofun⟩
  | repeated rule => exact ⟨mem_distinct.mpr (List.mem_flatMap.mpr ⟨_, h, uses⟩), nofun⟩

theorem known_of_repeated (hr : Sensible finish rules) {rule : Rule τ ν}
    (h : rule ∈ (ofRules finish rules).repeated) {part : Part τ ν} (uses : rule.Uses part) :
  (ofRules finish rules).Known part ∧ part ≠ .token finish
  := by
  obtain ⟨⟨name, whole⟩, hw, h⟩ := List.mem_flatMap.mp (mem_distinct.mp h)
  exact known_of_mem hr hw (Rule.uses_of_repetition whole h uses)

omit [LawfulBEq τ] in
/-- The number of a rule is the place of its name. -/
theorem idxOf_of_getElem? (hr : Sensible finish rules) {r : Nat} {name : ν} {rule : Rule τ ν}
    (h : rules[r]? = some (name, rule)) :
  (ofRules finish rules).names.idxOf name = r
  := by
  have here : (rules.map (·.1))[r]? = some name := by simp [h]
  obtain ⟨lt, rfl⟩ := List.getElem?_eq_some_iff.mp here
  exact hr.nodup.idxOf_getElem r lt

theorem idxOf_of_repeated {r : Nat} {rule : Rule τ ν}
    (h : (ofRules finish rules).repeated[r]? = some rule) :
  (ofRules finish rules).repeated.idxOf rule = r
  := by
  obtain ⟨lt, rfl⟩ := List.getElem?_eq_some_iff.mp h
  exact (nodup_distinct _).idxOf_getElem r lt

/-- A production is one of the alternatives of a named rule, or has the members of a repetition in a
row, or is the one of the whole text. -/
inductive Origin (finish : τ) (rules : List (ν × Rule τ ν)) (p : Production) : Prop where
  | named {name : ν} {rule : Rule τ ν} {a : Alternative τ ν} (mem : (name, rule) ∈ rules)
      (alternative : a ∈ rule.alternatives)
      (number : .rule p.rule = (ofRules finish rules).symbol (.named name))
      (row : p.symbols.toList = a.parts.map (ofRules finish rules).symbol)
  | repeated {rule : Rule τ ν} {a : Alternative τ ν} (mem : rule ∈ (ofRules finish rules).repeated)
      (alternative : a ∈ rule.alternatives)
      (number : .rule p.rule = (ofRules finish rules).symbol (.repeated rule))
      (row : p.symbols.toList = a.parts.map (ofRules finish rules).symbol
        ∨ p.symbols.toList
          = (ofRules finish rules).symbol (.repeated rule) :: a.parts.map (ofRules finish rules).symbol)
  | whole (number : p.rule = (ofRules finish rules).ruleCount) (row : p.symbols.toList = [.rule 0])

theorem origin (hr : Sensible finish rules) (hp : p ∈ (ofRules finish rules).productions rules) :
  Origin finish rules p
  := by
  obtain ⟨r, name, rule, h, hp⟩ | ⟨r, rule, h, hp⟩ | rfl := mem_productions.mp hp
  · obtain ⟨a, ha, rfl⟩ := List.mem_map.mp hp
    exact .named (List.mem_of_getElem? h) ha (by rw [symbol, idxOf_of_getElem? hr h]) rfl
  · obtain ⟨a, ha, hp⟩ := List.mem_flatMap.mp hp
    have number : Symbol.rule ((ofRules finish rules).names.length + r)
        = (ofRules finish rules).symbol (.repeated rule) := by
      rw [symbol, idxOf_of_repeated h]
    obtain rfl | hp := List.mem_cons.mp hp
    · exact .repeated (List.mem_of_getElem? h) ha number (.inr (by rw [← number]))
    · obtain rfl := List.mem_singleton.mp hp
      exact .repeated (List.mem_of_getElem? h) ha number (.inl rfl)
  · exact .whole rfl rfl

/-- Every symbol of a production is the one of a known part, and none is the end of the text. -/
theorem Origin.known (hr : Sensible finish rules) (h : Origin finish rules p) {s : Symbol}
    (hs : s ∈ p.symbols) :
  ∃ part, ((ofRules finish rules).Known part ∧ part ≠ .token finish)
    ∧ s = (ofRules finish rules).symbol part
  := by
  rw [← Array.mem_toList_iff] at hs
  cases h with
  | named mem alternative number row =>
    rw [row] at hs
    obtain ⟨part, hp, rfl⟩ := List.mem_map.mp hs
    exact ⟨part, known_of_mem hr mem (Rule.uses_of_alternative _ alternative hp), rfl⟩
  | @repeated rule a mem alternative number row =>
    have inRow : s ∈ a.parts.map (ofRules finish rules).symbol → ∃ part,
        ((ofRules finish rules).Known part ∧ part ≠ .token finish)
          ∧ s = (ofRules finish rules).symbol part := by
      intro hs
      obtain ⟨part, hp, rfl⟩ := List.mem_map.mp hs
      exact ⟨part, known_of_repeated hr mem (Rule.uses_of_alternative _ alternative hp), rfl⟩
    obtain row | row := row
    · exact inRow (row ▸ hs)
    · rw [row] at hs
      obtain rfl | hs := List.mem_cons.mp hs
      · exact ⟨.repeated rule, ⟨mem, nofun⟩, rfl⟩
      · exact inRow hs
  | whole number row =>
    rw [row] at hs
    obtain rfl := List.mem_singleton.mp hs
    obtain ⟨⟨name, rule⟩, rest, rfl⟩ := List.exists_cons_of_ne_nil hr.inhabited
    refine ⟨.named name, ⟨hr.named name, nofun⟩, ?_⟩
    rw [symbol, idxOf_of_getElem? hr (r := 0) rfl]

omit [LawfulBEq ν] in
/-- The end of the text has the number zero. -/
theorem idxOf_eq_zero {t : τ} (h : t ∈ (ofRules finish rules).tokens) :
  (ofRules finish rules).tokens.idxOf t = 0 ↔ t = finish
  := by
  obtain ⟨rest, first⟩ := List.head?_eq_some_iff.mp
    (head?_distinct finish (rules.flatMap (·.2.tokens)))
  have zero : (ofRules finish rules).tokens.idxOf finish = 0 := by
    rw [ofRules, first, List.idxOf_cons_self]
  rw [← zero]
  apply List.idxOf_inj h

omit [LawfulBEq ν] in
theorem Known.token_lt {n : Numbering τ ν} {part : Part τ ν} (h : n.Known part) {t : Nat}
    (symbol : n.symbol part = .token t) :
  t < n.tokens.length
  := by
  cases part with
  | token t' =>
    obtain rfl := Symbol.token.inj symbol
    exact List.idxOf_lt_length_iff.mpr h
  | _ => contradiction

theorem Known.rule_lt {n : Numbering τ ν} {part : Part τ ν} (h : n.Known part) {r : Nat}
    (symbol : n.symbol part = .rule r) :
  r < n.ruleCount
  := by
  cases part with
  | token t => contradiction
  | named name =>
    obtain rfl := Symbol.rule.inj symbol
    exact Nat.lt_add_right _ (List.idxOf_lt_length_iff.mpr h)
  | repeated rule =>
    obtain rfl := Symbol.rule.inj symbol
    exact Nat.add_lt_add_left (List.idxOf_lt_length_iff.mpr h) _

end Numbering

/-! ### Tables -/

section Tables

variable [BEq τ] [LawfulBEq τ] [BEq ν] [LawfulBEq ν] {finish : τ} {rules : List (ν × Rule τ ν)}

omit [LawfulBEq τ] [LawfulBEq ν] in
theorem tokens_ofRules (forced : List (ν × τ)) :
  (ofRules finish rules forced).tokens = (Numbering.ofRules finish rules).tokens.toArray
  := rfl

omit [LawfulBEq τ] [LawfulBEq ν] in
theorem names_ofRules (forced : List (ν × τ)) :
  (ofRules finish rules forced).names = (Numbering.ofRules finish rules).names.toArray
  := rfl

omit [LawfulBEq ν] in
/-- The tokens with their numbers. -/
theorem mem_zipIdx_tokens {forced : List (ν × τ)} {t : τ} {n : Nat} :
  (t, n) ∈ (ofRules finish rules forced).tokens.toList.zipIdx
    ↔ t ∈ (Numbering.ofRules finish rules).tokens
      ∧ (ofRules finish rules forced).tokenNumber t = n
  := by
  rw [List.mem_zipIdx_iff_getElem?]
  constructor
  · intro h
    have here : (Numbering.ofRules finish rules).tokens[n]? = some t := h
    obtain ⟨lt, rfl⟩ := List.getElem?_eq_some_iff.mp here
    exact ⟨List.getElem_mem lt, (nodup_distinct _).idxOf_getElem n lt⟩
  · rintro ⟨mem, rfl⟩
    apply List.getElem?_idxOf mem

omit [LawfulBEq τ] [LawfulBEq ν] in
theorem of_mem_startingWith {forced : List (ν × τ)} {symbol : Symbol} {n : Nat}
    (h : n ∈ (ofRules finish rules forced).startingWith symbol) :
  ((ofRules finish rules forced).productions[n]?).bind (·.symbols[0]?) = some symbol
  := by
  cases symbol with
  | token t =>
    obtain ⟨_, p, symbol, hp, first, same⟩ := mem_collectByFirst.mp h
    cases symbol with
    | token t' =>
      obtain rfl := Option.some.inj same
      exact Option.bind_eq_some_iff.mpr ⟨p, hp, first⟩
    | rule r => contradiction
  | rule r =>
    obtain ⟨_, p, symbol, hp, first, same⟩ := mem_collectByFirst.mp h
    cases symbol with
    | token t => contradiction
    | rule r' =>
      obtain rfl := Option.some.inj same
      exact Option.bind_eq_some_iff.mpr ⟨p, hp, first⟩

theorem indexed_ofRules (hr : Sensible finish rules) (forced : List (ν × τ)) :
  (ofRules finish rules forced).Indexed
  := by
  have mem_of_head? : ∀ {p : Production} {s : Symbol}, p.symbols.toList.head? = some s →
      s ∈ p.symbols := fun h => Array.mem_toList_iff.mp (List.mem_of_head? h)
  have known : ∀ p ∈ (ofRules finish rules forced).productions, ∀ s ∈ p.symbols, ∃ part,
      ((Numbering.ofRules finish rules).Known part ∧ part ≠ .token finish)
        ∧ s = (Numbering.ofRules finish rules).symbol part :=
    fun p hp s hs => (Numbering.origin hr (List.mem_toArray.mp hp)).known hr hs
  constructor
  case startingWith => apply of_mem_startingWith
  case leads =>
    intro r lead hl
    obtain ⟨p, hp, _, first⟩ := (stems_of_mem_collectLeads hl).first
    exact ⟨p, hp, mem_of_head? first⟩
  case openings =>
    intro r t ht
    obtain ⟨_, p, hp, _, first⟩ := has_collectOpenings.mp ht
    exact ⟨p, hp, mem_of_head? first⟩
  case whole =>
    refine ⟨(Numbering.ofRules finish rules).wholeProduction, ?_, rfl, ?_⟩
    · simp [wholeProduction, ofRules, Numbering.productions]
    · intro p hp used
      obtain ⟨part, ⟨hk, _⟩, same⟩ := known p hp _ used
      exact Nat.lt_irrefl _ (hk.rule_lt same.symm)
  case finish =>
    intro p hp used
    obtain ⟨part, ⟨hk, ne⟩, same⟩ := known p hp _ used
    cases part with
    | token t =>
      have zero := Symbol.token.inj same
      exact ne (congrArg _ ((Numbering.idxOf_eq_zero hk).mp zero.symm))
    | _ => contradiction

end Tables

end Grammar

/-! ### What rules spell -/

namespace Rule

variable [BEq τ] [BEq ν]

mutual

/-- The trees are what a rule stands for. -/
def Spells (n : Grammar.Numbering τ ν) : Rule τ ν → List Tree → Prop
  | token t, trees => ∃ tree, trees = [tree] ∧ tree.symbol = n.symbol (.token t)
  | named name, trees => ∃ tree, trees = [tree] ∧ tree.symbol = n.symbol (.named name)
  | seq rules, trees => SpellRow n rules trees
  | choice rules, trees => SpellOne n rules trees
  | many1 rule, trees => ∃ tree, trees = [tree] ∧ tree.symbol = n.symbol (.repeated rule)
  | ranked _ _ rule, trees => rule.Spells n trees

/-- The trees are what several rules in a row stand for. -/
def SpellRow (n : Grammar.Numbering τ ν) : List (Rule τ ν) → List Tree → Prop
  | [], trees => trees = []
  | rule :: rules, trees => ∃ first rest, trees = first ++ rest ∧ rule.Spells n first
    ∧ SpellRow n rules rest

/-- The trees are what one of several rules stands for. -/
def SpellOne (n : Grammar.Numbering τ ν) : List (Rule τ ν) → List Tree → Prop
  | [], _ => False
  | rule :: rules, trees => rule.Spells n trees ∨ SpellOne n rules trees

end

mutual

/-- Trees for the parts of an alternative are spelled by the rule. -/
theorem spells_of_alternative (n : Grammar.Numbering τ ν) : ∀ (r : Rule τ ν) {a : Alternative τ ν}
    {trees : List Tree}, a ∈ r.alternatives → trees.map Tree.symbol = a.parts.map n.symbol →
    r.Spells n trees
  | token t, a, trees, ha, row => by
    obtain rfl := List.mem_singleton.mp ha
    exact List.map_eq_singleton_iff.mp row
  | named name, a, trees, ha, row => by
    obtain rfl := List.mem_singleton.mp ha
    exact List.map_eq_singleton_iff.mp row
  | seq rs, a, trees, ha, row => spellRow_of_alternative n rs ha row
  | choice rs, a, trees, ha, row => spellOne_of_alternative n rs ha row
  | many1 r, a, trees, ha, row => by
    obtain rfl := List.mem_singleton.mp ha
    exact List.map_eq_singleton_iff.mp row
  | ranked rank side r, a, trees, ha, row => by
    obtain ⟨b, hb, rfl⟩ := List.mem_map.mp ha
    exact spells_of_alternative n r hb row

theorem spellRow_of_alternative (n : Grammar.Numbering τ ν) : ∀ (rs : List (Rule τ ν))
    {a : Alternative τ ν} {trees : List Tree}, a ∈ rowAlternatives rs →
    trees.map Tree.symbol = a.parts.map n.symbol → SpellRow n rs trees
  | [], a, trees, ha, row => by
    obtain rfl := List.mem_singleton.mp ha
    exact List.map_eq_nil_iff.mp row
  | r :: rs, a, trees, ha, row => by
    obtain ⟨b, hb, ha⟩ := List.mem_flatMap.mp ha
    obtain ⟨c, hc, rfl⟩ := List.mem_map.mp ha
    rw [List.map_append] at row
    obtain ⟨first, rest, rfl, firstRow, restRow⟩ := List.map_eq_append_iff.mp row
    exact ⟨first, rest, rfl, spells_of_alternative n r hb firstRow,
      spellRow_of_alternative n rs hc restRow⟩

theorem spellOne_of_alternative (n : Grammar.Numbering τ ν) : ∀ (rs : List (Rule τ ν))
    {a : Alternative τ ν} {trees : List Tree}, a ∈ choiceAlternatives rs →
    trees.map Tree.symbol = a.parts.map n.symbol → SpellOne n rs trees
  | [], a, trees, ha, row => by contradiction
  | r :: rs, a, trees, ha, row => by
    obtain ha | ha := List.mem_append.mp ha
    · exact .inl (spells_of_alternative n r ha row)
    · exact .inr (spellOne_of_alternative n rs ha row)

end

end Rule

/-! ### Derived trees -/

section Derived

open Grammar (Numbering Sensible)

variable [BEq τ] [LawfulBEq τ] [BEq ν] [LawfulBEq ν] {finish : τ} {rules : List (ν × Rule τ ν)}
  {forced : List (ν × τ)} {tree : Tree}

/-- The children of a derived tree of a named rule are spelled by the rule. -/
theorem Derives.spells (hr : Sensible finish rules)
    (h : Derives (Grammar.ofRules finish rules forced) tree) {name : ν} {rule : Rule τ ν}
    (mem : (name, rule) ∈ rules)
    (symbol : tree.symbol = (Numbering.ofRules finish rules).symbol (.named name)) :
  rule.Spells (Numbering.ofRules finish rules) tree.children
    ∧ ∀ child ∈ tree.children, Derives (Grammar.ofRules finish rules forced) child
  := by
  cases h with
  | leaf token start stop => contradiction
  | @node p place children hp row inhabited derived =>
    refine ⟨?_, derived⟩
    have known := Numbering.known_named hr name
    cases Numbering.origin hr (List.mem_toArray.mp hp) with
    | @named name' rule' a mem' alternative number row' =>
      obtain ⟨⟩ := (Numbering.symbol_inj known (Numbering.known_named hr name')).mp
        (symbol.symm.trans number)
      obtain ⟨⟩ := List.inj_on_of_nodup_map hr.nodup mem mem' rfl
      exact Rule.spells_of_alternative _ rule alternative (row.trans row')
    | repeated mem' alternative number row' =>
      have := (Numbering.symbol_inj known (Numbering.known_repeated mem')).mp (symbol.symm.trans number)
      contradiction
    | whole number row' =>
      have lt := Numbering.Known.rule_lt known symbol.symm
      exact absurd lt (number ▸ Nat.lt_irrefl _)

/-- The tree holds rows of trees one after the other, each below the one behind it. -/
inductive Repeats (symbol : Symbol) : Tree → List (List Tree) → Prop where
  | one {rule start stop : Nat} (row : List Tree) (same : Symbol.rule rule = symbol) :
      Repeats symbol (.node rule start stop row) [row]
  | more {rule start stop : Nat} {first : Tree} {rows : List (List Tree)} (row : List Tree)
      (same : Symbol.rule rule = symbol) (before : Repeats symbol first rows) :
      Repeats symbol (.node rule start stop (first :: row)) (rows ++ [row])

theorem Repeats.leaves {symbol : Symbol} {rows : List (List Tree)} (h : Repeats symbol tree rows) :
  tree.leaves = Tree.leavesAll rows.flatten
  := by
  induction h with
  | one row same => simp [Tree.leaves]
  | more row same before ih => simp [Tree.leaves, Tree.leavesAll, ih]

/-- A derived tree of a repetition holds rows that are spelled by the repeated rule. -/
theorem Derives.repeats (hr : Sensible finish rules)
    (h : Derives (Grammar.ofRules finish rules forced) tree) {rule : Rule τ ν}
    (mem : rule ∈ (Numbering.ofRules finish rules).repeated)
    (symbol : tree.symbol = (Numbering.ofRules finish rules).symbol (.repeated rule)) :
  ∃ rows, Repeats ((Numbering.ofRules finish rules).symbol (.repeated rule)) tree rows ∧ rows ≠ []
    ∧ ∀ row ∈ rows, rule.Spells (Numbering.ofRules finish rules) row
      ∧ ∀ child ∈ row, Derives (Grammar.ofRules finish rules forced) child
  := by
  have known := Numbering.known_repeated mem
  induction h with
  | leaf token start stop => contradiction
  | @node p place children hp row inhabited derived ih =>
    cases Numbering.origin hr (List.mem_toArray.mp hp) with
    | @named name' rule' a mem' alternative number row' =>
      have := (Numbering.symbol_inj known (Numbering.known_named hr name')).mp (symbol.symm.trans number)
      contradiction
    | @repeated rule' a mem' alternative number row' =>
      obtain ⟨⟩ := (Numbering.symbol_inj known (Numbering.known_repeated mem')).mp
        (symbol.symm.trans number)
      obtain row' | row' := row'
      · refine ⟨[children], .one _ symbol, by simp, ?_⟩
        rw [List.forall_mem_singleton]
        exact ⟨Rule.spells_of_alternative _ rule alternative (row.trans row'), derived⟩
      · obtain ⟨first, rest, rfl, same, row'⟩ := List.map_eq_cons_iff.mp (row.trans row')
        obtain ⟨rows, repeats, _, all⟩ := ih first List.mem_cons_self same
        refine ⟨rows ++ [rest], .more _ symbol repeats, by simp, ?_⟩
        rw [List.forall_mem_append, List.forall_mem_singleton]
        exact ⟨all, Rule.spells_of_alternative _ rule alternative row',
          fun child hc => derived child (List.mem_cons_of_mem _ hc)⟩
    | whole number row' =>
      have lt := Numbering.Known.rule_lt known symbol.symm
      exact absurd lt (number ▸ Nat.lt_irrefl _)

end Derived

end SourceAtlas.Parsing
