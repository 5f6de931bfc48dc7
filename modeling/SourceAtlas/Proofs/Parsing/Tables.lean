import SourceAtlas.Proofs.Parsing.States

/-!
# What a grammar keeps about its productions

The tables of a grammar are made by passing over the productions once. Each of them is described by
the productions that it was made from: the productions that begin with a symbol, the tokens that
begin a rule, and the rules that begin it, with what follows them there.
-/

namespace SourceAtlas.Parsing

namespace Grammar

theorem getD_modify {α : Type} (xs : Array α) (i k : Nat) (f : α → α) (d : α) :
  (xs.modify i f).getD k d = if i = k ∧ k < xs.size then f (xs.getD k d) else xs.getD k d
  := by
  rw [Array.getD_eq_getD_getElem?, Array.getD_eq_getD_getElem?, Array.getElem?_modify]
  by_cases hk : k < xs.size
  · by_cases same : i = k <;> simp [hk, same]
  · simp [hk]

theorem getD_replicate {α : Type} (count k : Nat) (x : α) :
  (Array.replicate count x).getD k x = x
  := by
  rw [Array.getD_eq_getD_getElem?, Array.getElem?_replicate]
  split <;> rfl

/-! ### Productions by their first symbol -/

/-- A table that is filled from the back lists in order what is put at a number. -/
theorem getD_foldr_modify (count k : Nat) (choose : Nat → Option Nat)
    {put : Nat → Array (List Nat) → Array (List Nat)}
    (chosen : ∀ n m, choose n = some m → ∀ table, put n table = table.modify m (n :: ·))
    (skipped : ∀ n, choose n = none → ∀ table, put n table = table) (ns : List Nat) :
  (ns.foldr put (Array.replicate count [])).size = count
    ∧ (ns.foldr put (Array.replicate count [])).getD k []
      = if k < count then ns.filter fun n => choose n == some k else []
  := by
  induction ns with
  | nil =>
    refine ⟨by simp, ?_⟩
    rw [List.foldr_nil, getD_replicate, List.filter_nil, ite_self]
  | cons n ns ih =>
    obtain ⟨size, here⟩ := ih
    rw [List.foldr_cons, List.filter_cons]
    cases choice : choose n with
    | none => simp [skipped n choice, size, here]
    | some m =>
      rw [chosen n m choice, Array.size_modify, getD_modify, size, here]
      refine ⟨rfl, ?_⟩
      by_cases hk : k < count <;> by_cases same : m = k <;> simp [hk, same]

/-- The productions with a first symbol are listed in order. -/
theorem getD_collectByFirst (count k : Nat) (choose : Symbol → Option Nat) (ps : Array Production) :
  (collectByFirst count choose ps).getD k []
    = if k < count then (List.range ps.size).filter fun n => firstBy choose ps n == some k else []
  := by
  rw [collectByFirst]
  refine (getD_foldr_modify count k (firstBy choose ps) ?_ ?_ _).2
  · intro n m chosen table
    rw [chosen]
  · intro n skipped table
    rw [skipped]

/-- The productions that begin with a symbol whose number is in bounds. -/
theorem mem_collectByFirst {count k n : Nat} {choose : Symbol → Option Nat} {ps : Array Production} :
  n ∈ (collectByFirst count choose ps).getD k []
    ↔ k < count ∧ ∃ p symbol, ps[n]? = some p ∧ p.symbols[0]? = some symbol
      ∧ choose symbol = some k
  := by
  rw [getD_collectByFirst]
  split
  · next hk =>
    simp only [List.mem_filter, List.mem_range, beq_iff_eq, firstBy, Option.bind_eq_some_iff,
      List.head?_eq_getElem?, Array.getElem?_toList, hk, true_and]
    constructor
    · rintro ⟨_, symbol, ⟨p, hp, first⟩, chosen⟩
      exact ⟨p, symbol, hp, first, chosen⟩
    · rintro ⟨p, symbol, hp, first, chosen⟩
      exact ⟨(Array.getElem?_eq_some_iff.mp hp).1, symbol, ⟨p, hp, first⟩, chosen⟩
  · next hk => simp [hk]

theorem nodup_collectByFirst (count k : Nat) (choose : Symbol → Option Nat) (ps : Array Production) :
  ((collectByFirst count choose ps).getD k []).Nodup
  := by
  rw [getD_collectByFirst]
  split
  · exact List.nodup_range.filter _
  · exact List.nodup_nil

/-! ### First tokens -/

@[simp]
theorem size_addOpening (openings : Array TokenSet) (p : Production) :
  (addOpening openings p).size = openings.size
  := by
  unfold addOpening
  split
  · apply Array.size_modify
  · rfl

theorem has_addOpening {openings : Array TokenSet} {p : Production} {r t : Nat} :
  ((addOpening openings p).getD r 0).has t = true
    ↔ (openings.getD r 0).has t = true
      ∨ r < openings.size ∧ p.rule = r ∧ p.symbols.toList.head? = some (.token t)
  := by
  unfold addOpening
  split
  · next t' _ first =>
    rw [getD_modify, first, List.head?_cons, Option.some.injEq, Symbol.token.injEq]
    split
    · next here =>
      rw [TokenSet.has_union, TokenSet.has_single, Bool.or_eq_true, decide_eq_true_eq]
      grind
    · next elsewhere => grind
  · next notToken =>
    constructor
    · exact .inl
    · rintro (has | ⟨_, _, first⟩)
      · exact has
      · obtain ⟨rest, row⟩ := List.head?_eq_some_iff.mp first
        exact absurd row (notToken t rest)

/-- The tokens that begin a production of a rule. -/
theorem has_collectOpenings {count r t : Nat} {ps : Array Production} :
  ((collectOpenings count ps).getD r 0).has t = true
    ↔ r < count ∧ ∃ p ∈ ps, p.rule = r ∧ p.symbols.toList.head? = some (.token t)
  := by
  obtain ⟨ps⟩ := ps
  suffices h : ∀ openings : Array TokenSet, ((ps.foldl addOpening openings).getD r 0).has t = true
      ↔ (openings.getD r 0).has t = true ∨ r < openings.size
        ∧ ∃ p ∈ ps, p.rule = r ∧ p.symbols.toList.head? = some (.token t) by
    rw [collectOpenings, List.foldl_toArray, h, getD_replicate]
    simp
  induction ps with
  | nil => simp
  | cons p ps ih =>
    intro openings
    rw [List.foldl_cons, ih, has_addOpening, size_addOpening]
    simp only [List.mem_cons, exists_eq_or_imp]
    grind

end Grammar

/-! ### Leads -/

/-- A lead tells at least what another one does. -/
structure Lead.Covers (lead other : Lead) : Prop where
  rule : lead.rule = other.rule
  behind : ∀ t, other.behind.has t = true → lead.behind.has t = true
  ends : other.ends = true → lead.ends = true

theorem Lead.Covers.rfl {lead : Lead} :
  lead.Covers lead
  := ⟨Eq.refl _, fun _ => id, id⟩

theorem Lead.Covers.trans {a b c : Lead} (h : a.Covers b) (h' : b.Covers c) :
  a.Covers c
  := ⟨h.rule.trans h'.rule, fun t ht => h.behind t (h'.behind t ht), fun e => h.ends (h'.ends e)⟩

namespace Grammar

/-- A lead is joined with the one of the same rule, and the others stay. -/
theorem covers_addLead (lead : Lead) (leads : List Lead) :
  (∃ l ∈ addLead lead leads, l.Covers lead)
    ∧ ∀ known ∈ leads, ∃ l ∈ addLead lead leads, l.Covers known
  := by
  induction leads with
  | nil => simp [addLead, Lead.Covers.rfl]
  | cons first leads ih =>
    obtain ⟨added, kept⟩ := ih
    rw [addLead]
    split
    · next same =>
      have rule := beq_iff_eq.mp same
      constructor
      · refine ⟨_, List.mem_cons_self, rule, ?_, ?_⟩
        · intro t ht
          simp [ht]
        · intro he
          simp [he]
      · rw [List.forall_mem_cons]
        constructor
        · refine ⟨_, List.mem_cons_self, Eq.refl _, ?_, ?_⟩
          · intro t ht
            simp [ht]
          · intro he
            simp [he]
        · intro known hk
          exact ⟨known, List.mem_cons_of_mem _ hk, Lead.Covers.rfl⟩
    · constructor
      · obtain ⟨l, hl, covers⟩ := added
        exact ⟨l, List.mem_cons_of_mem _ hl, covers⟩
      · rw [List.forall_mem_cons]
        refine ⟨⟨first, List.mem_cons_self, Lead.Covers.rfl⟩, ?_⟩
        intro known hk
        obtain ⟨l, hl, covers⟩ := kept known hk
        exact ⟨l, List.mem_cons_of_mem _ hl, covers⟩

/-- What a lead tells comes from the added one or from those before. -/
theorem of_mem_addLead {lead l : Lead} {leads : List Lead} (h : l ∈ addLead lead leads) :
  (l.rule = lead.rule ∨ ∃ known ∈ leads, l.rule = known.rule)
    ∧ ∀ t, l.behind.has t = true →
      lead.behind.has t = true ∨ ∃ known ∈ leads, known.behind.has t = true
  := by
  induction leads with
  | nil =>
    obtain rfl := List.mem_singleton.mp h
    exact ⟨.inl rfl, fun t => .inl⟩
  | cons first leads ih =>
    rw [addLead] at h
    split at h
    · obtain rfl | h := List.mem_cons.mp h
      · refine ⟨.inr ⟨first, List.mem_cons_self, rfl⟩, ?_⟩
        intro t ht
        rw [TokenSet.has_union, Bool.or_eq_true] at ht
        obtain ht | ht := ht
        · exact .inr ⟨first, List.mem_cons_self, ht⟩
        · exact .inl ht
      · have known := List.mem_cons_of_mem first h
        exact ⟨.inr ⟨l, known, rfl⟩, fun t ht => .inr ⟨l, known, ht⟩⟩
    · obtain rfl | h := List.mem_cons.mp h
      · exact ⟨.inr ⟨l, List.mem_cons_self, rfl⟩, fun t ht => .inr ⟨l, List.mem_cons_self, ht⟩⟩
      · obtain ⟨rules, behind⟩ := ih h
        constructor
        · exact rules.imp_right fun ⟨known, hk, same⟩ => ⟨known, List.mem_cons_of_mem _ hk, same⟩
        · intro t ht
          exact (behind t ht).imp_right fun ⟨known, hk, has⟩ => ⟨known, List.mem_cons_of_mem _ hk, has⟩

/-- The lead of a production is for its first symbol, and what follows that symbol there begins the
second one. -/
theorem of_leadOf? {firsts : Array TokenSet} {p : Production} {lead : Lead}
    (h : leadOf? firsts p = some lead) :
  p.symbols.toList.head? = some (.rule lead.rule)
    ∧ ∀ t, lead.behind.has t = true → ∃ s rest, p.symbols.toList = .rule lead.rule :: s :: rest
      ∧ (beginning firsts s).has t = true
  := by
  unfold leadOf? at h
  split at h
  · next r row =>
    obtain rfl := Option.some.inj h
    rw [row]
    exact ⟨rfl, by simp⟩
  · next r s rest row =>
    obtain rfl := Option.some.inj h
    rw [row]
    exact ⟨rfl, fun t ht => ⟨s, rest, rfl, ht⟩⟩
  · contradiction

theorem leadOf?_single {firsts : Array TokenSet} {p : Production} {r : Nat}
    (row : p.symbols.toList = [.rule r]) :
  leadOf? firsts p = some ⟨r, 0, true⟩
  := by
  rw [leadOf?, row]

theorem leadOf?_cons {firsts : Array TokenSet} {p : Production} {r : Nat} {s : Symbol}
    {rest : List Symbol} (row : p.symbols.toList = .rule r :: s :: rest) :
  leadOf? firsts p = some ⟨r, beginning firsts s, false⟩
  := by
  rw [leadOf?, row]

@[simp]
theorem size_addLeadOf (firsts : Array TokenSet) (leads : Array (List Lead)) (p : Production) :
  (addLeadOf firsts leads p).size = leads.size
  := by
  unfold addLeadOf
  split
  · apply Array.size_modify
  · rfl

variable {firsts : Array TokenSet} {count r : Nat} {ps : Array Production} {lead : Lead}

/-- A lead of a rule that productions give. -/
structure Stems (ps : Array Production) (firsts : Array TokenSet) (r : Nat) (lead : Lead) : Prop where
  first : ∃ p ∈ ps, p.rule = r ∧ p.symbols.toList.head? = some (.rule lead.rule)
  behind : ∀ t, lead.behind.has t = true → ∃ p ∈ ps, p.rule = r
    ∧ ∃ r' s rest, p.symbols.toList = .rule r' :: s :: rest ∧ (beginning firsts s).has t = true

/-- The leads of a rule come from its productions. -/
theorem stems_of_mem_collectLeads (h : lead ∈ (collectLeads count firsts ps).getD r []) :
  Stems ps firsts r lead
  := by
  obtain ⟨ps⟩ := ps
  rw [collectLeads, List.foldl_toArray] at h
  suffices all : ∀ r, ∀ lead ∈ (ps.foldl (addLeadOf firsts) (Array.replicate count [])).getD r [],
      Stems ⟨ps⟩ firsts r lead from all r lead h
  apply List.foldlRecOn (motive := fun leads : Array (List Lead) =>
    ∀ r, ∀ lead ∈ leads.getD r [], Stems ⟨ps⟩ firsts r lead)
  · intro r lead h
    rw [getD_replicate] at h
    contradiction
  · intro leads ih p hp r lead h
    unfold addLeadOf at h
    split at h
    · next l hl =>
      rw [getD_modify] at h
      split at h
      · next here =>
        obtain ⟨first, behind⟩ := of_leadOf? hl
        obtain ⟨rules, has⟩ := of_mem_addLead h
        constructor
        · obtain same | ⟨known, hk, same⟩ := rules
          · exact ⟨p, List.mem_toArray.mpr hp, here.1, same ▸ first⟩
          · exact same ▸ (ih r known hk).first
        · intro t ht
          obtain ht | ⟨known, hk, ht⟩ := has t ht
          · exact ⟨p, List.mem_toArray.mpr hp, here.1, _, behind t ht⟩
          · exact (ih r known hk).behind t ht
      · exact ih r lead h
    · exact ih r lead h

/-- The lead is among those of the rule, perhaps joined with others. -/
def Tells (leads : Array (List Lead)) (r : Nat) (lead : Lead) : Prop :=
  ∃ l ∈ leads.getD r [], l.Covers lead

theorem Tells.addLeadOf {leads : Array (List Lead)} (h : Tells leads r lead) (p : Production) :
  Tells (addLeadOf firsts leads p) r lead
  := by
  obtain ⟨known, hk, covers⟩ := h
  unfold Grammar.addLeadOf
  split
  · next l _ =>
    rw [Tells, getD_modify]
    split
    · obtain ⟨l', hl', covers'⟩ := (covers_addLead l _).2 known hk
      exact ⟨l', hl', covers'.trans covers⟩
    · exact ⟨known, hk, covers⟩
  · exact ⟨known, hk, covers⟩

/-- Every production that begins with a rule has a lead. -/
theorem tells_collectLeads {p : Production} (hp : p ∈ ps) (hr : p.rule < count)
    (h : leadOf? firsts p = some lead) :
  Tells (collectLeads count firsts ps) p.rule lead
  := by
  obtain ⟨ps⟩ := ps
  rw [collectLeads, List.foldl_toArray]
  obtain ⟨before, after, rfl⟩ := List.append_of_mem (List.mem_toArray.mp hp)
  rw [List.foldl_append, List.foldl_cons]
  apply List.foldlRecOn (motive := fun leads => Tells leads p.rule lead)
  · have size : (before.foldl (Grammar.addLeadOf firsts) (Array.replicate count [])).size = count := by
      apply List.foldlRecOn (motive := fun leads : Array (List Lead) => leads.size = count)
      · apply Array.size_replicate
      · intro leads ih q _
        rw [size_addLeadOf, ih]
    rw [Grammar.addLeadOf, h, Tells]
    simp only
    rw [getD_modify, size, if_pos ⟨rfl, hr⟩]
    apply (covers_addLead lead _).1
  · intro leads tells q _
    apply tells.addLeadOf

end Grammar

end SourceAtlas.Parsing
