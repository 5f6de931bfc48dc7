import SourceAtlas.Proofs.Parsing.Spellings

/-!
# Regular states

The states that are reached from the start of a text are regular: their items differ in production or
place, and only tokens of the grammar follow them. At a regular state everything that an item or a
rule leads to may begin. What is done on a token is plain if no item is complete there, and if one
item alone is complete.
-/

namespace SourceAtlas.Parsing

open Grammar (Numbering Spelling Compiled)

variable {τ ν : Type} {g : Grammar τ ν}

/-- Two items are told apart by production and place. -/
def Item.Apart (i j : Item) : Prop :=
  i.production ≠ j.production ∨ i.place ≠ j.place

theorem Item.Apart.symm {i j : Item} (h : i.Apart j) :
  j.Apart i
  := h.imp Ne.symm Ne.symm

namespace State

/-- A state whose items are told apart, with tokens of the grammar behind them, and at the start only
the item of the whole text. -/
structure Regular (g : Grammar τ ν) (q : State) : Prop where
  made : q = .ofItems g q.items
  apart : q.items.Pairwise Item.Apart
  bounded : ∀ i ∈ q.items, ∀ t, i.follow.has t = true → t < g.tokens.size
  begun : ∀ i ∈ q.items, i.place = 0 → i.production = g.wholeProduction

namespace Regular

variable {q : State} {i : Item} {r t : Nat}

theorem start (hc : g.Closed) :
  Regular g g.startState
  := by
  have items : g.startState.items = [g.startItem] := rfl
  constructor
  · rfl
  · rw [items]
    apply List.pairwise_singleton
  · rw [items, List.forall_mem_singleton]
    intro t ht
    have zero : (TokenSet.single 0).has t = true := ht
    rw [TokenSet.has_single, decide_eq_true_eq] at zero
    exact zero ▸ hc.inhabited
  · rw [items, List.forall_mem_singleton]
    intro _
    rfl

theorem upcoming (h : Regular g q) :
  q.upcoming = upcomingOf g q.items
  := congrArg State.upcoming h.made

/-- A token is looked for if it can be read or may follow a complete item. -/
theorem has_possible (h : Regular g q) :
  q.possible.has t = true
    ↔ q.readable.has t = true ∨ ∃ i ∈ q.items, i.next? g = none ∧ i.follow.has t = true
  := by
  have collect := TokenSet.has_foldl (t := t)
    (fun set (i : Item) => if (i.next? g).isNone then set.union i.follow else set)
    (fun i => i.next? g = none ∧ i.follow.has t = true)
    (by
      intro set i
      split <;> simp_all)
    q.items 0
  have possible : q.possible = q.readable.union
      (q.items.foldl (fun set i => if (i.next? g).isNone then set.union i.follow else set) 0) := by
    rw [h.made]
    rfl
  rw [possible, TokenSet.has_union, Bool.or_eq_true, collect, TokenSet.not_has_zero]
  simp

/-- What items ask for are rules of the grammar with tokens behind them. -/
theorem small (hc : g.Closed) (h : Regular g q) (hi : i ∈ q.items) {want : Nat × TokenSet}
    (hw : Outlook.wantOf? g i = some want) :
  g.Small want
  := by
  unfold Outlook.wantOf? at hw
  split at hw
  · next r next =>
    obtain rfl := Option.some.inj hw
    constructor
    · obtain ⟨p, hp, asked⟩ := Item.exists_mem_of_next? next
      exact hc.rules p hp r asked
    · intro t ht
      rw [TokenSet.has_union, Bool.or_eq_true] at ht
      obtain behind | forced := ht
      · unfold Item.behindNext at behind
        split at behind
        · next s hs =>
          obtain ⟨p, hp, here⟩ := Option.bind_eq_some_iff.mp hs
          exact hc.begins p (Array.mem_of_getElem? hp) s (Array.mem_of_getElem? here) t behind
        · exact h.bounded i hi t behind
      · exact hc.forced r t forced
  · contradiction

theorem smallAll (hc : g.Closed) (h : Regular g q) :
  ∀ want ∈ q.items.filterMap (Outlook.wantOf? g), g.Small want
  := by
  intro want hw
  obtain ⟨j, hj, hw⟩ := List.mem_filterMap.mp hw
  exact h.small hc hj hw

theorem upcoming_lt (hc : g.Closed) (h : Regular g q) (ht : (q.upcoming.getD r 0).has t = true) :
  t < g.tokens.size
  := by
  rw [h.upcoming] at ht
  have leading : Outlook.Leading g (fun _ => True) (· < g.tokens.size) :=
    ⟨by simp, fun r _ lead hl => (hc.leads r lead hl).tokens, fun r _ => hc.forced r⟩
  refine (of_has_upcomingOf ?_ leading ht).2
  intro i hi want hw
  exact ⟨trivial, (h.small hc hi hw).tokens⟩

/-- Behind a symbol a regular state is regular again. -/
theorem behind (hg : g.Indexed) (hc : g.Closed) (h : Regular g q)
    (nodup : ∀ symbol, (g.startingWith symbol).Nodup) (symbol : Symbol) :
  Regular g (.ofItems g (q.itemsBehind g symbol))
  := by
  constructor
  · rfl
  · have merged := Item.mergeSorted_perm (q.items.filterMap (pass? g symbol))
      ((g.startingWith symbol).filterMap (begin? g q))
    apply (merged.pairwise_iff Item.Apart.symm).mpr
    rw [List.pairwise_append, List.pairwise_filterMap, List.pairwise_filterMap]
    refine ⟨?_, ?_, ?_⟩
    · refine h.apart.imp ?_
      intro i j apart i' hi j' hj
      obtain ⟨_, rfl⟩ := pass?_eq_some_iff.mp hi
      obtain ⟨_, rfl⟩ := pass?_eq_some_iff.mp hj
      exact apart.imp_right fun ne same => ne (Nat.succ.inj same)
    · refine (nodup symbol).imp ?_
      intro m m' ne i hi j hj
      obtain ⟨_, rfl⟩ := begin?_eq_some_iff.mp hi
      obtain ⟨_, rfl⟩ := begin?_eq_some_iff.mp hj
      exact .inl ne
    · intro i hi j hj
      obtain ⟨i', hi', pass⟩ := List.mem_filterMap.mp hi
      obtain ⟨m, _, begins⟩ := List.mem_filterMap.mp hj
      obtain ⟨_, rfl⟩ := pass?_eq_some_iff.mp pass
      obtain ⟨inhabited, rfl⟩ := begin?_eq_some_iff.mp begins
      by_contra same
      obtain ⟨production, place⟩ : i'.production = m ∧ i'.place + 1 = 1 := by
        simpa [Item.Apart] using same
      have whole := h.begun i' hi' (Nat.succ.inj place)
      obtain ⟨w, hw, _, unused⟩ := hg.whole
      apply TokenSet.isInhabited_iff.mp inhabited
      rw [followOf, ← production, whole, hw, Option.map_some, Option.getD_some, h.upcoming]
      exact upcomingOf_unused hg unused
  · intro i hi t ht
    obtain ⟨j, hj, _, rfl⟩ | ⟨m, _, _, rfl⟩ := mem_itemsBehind.mp hi
    · exact h.bounded j hj t ht
    · exact h.upcoming_lt hc ht
  · intro i hi place
    obtain ⟨j, _, _, rfl⟩ | ⟨m, _, _, rfl⟩ := mem_itemsBehind.mp hi <;> contradiction

end Regular

/-! ### Plain choices -/

section Choices

variable {q : State} {i : Item} {t : Nat}

/-- Where no item is complete the token is read if it can be. -/
theorem choices_reads (h : ∀ i ∈ q.items, i.next? g = none → i.follow.has t = false) :
  q.choices g t = { reads := q.readable.has t }
  := by
  have none : complete g q t = [] := by
    apply List.filter_eq_nil_iff.mpr
    intro i hi done
    rw [Bool.and_eq_true, Option.isNone_iff_eq_none] at done
    rw [h i hi done.1] at done
    exact absurd done.2 Bool.false_ne_true
  unfold choices
  rw [complete] at none
  rw [none]
  rfl

/-- Where one item is complete its production is ended, and no other, as the items of a state are
apart. -/
theorem choices_ends (h : Regular g q) (hi : i ∈ q.items) (done : i.next? g = none)
    (follow : i.follow.has t = true)
    (only : ∀ j ∈ q.items, j.next? g = none → j.follow.has t = true → ¬ j.Apart i)
    (part : i.production ≠ g.wholeProduction) (unread : q.readable.has t = false) :
  q.choices g t = { ended := [i.production] }
  := by
  have mem : i ∈ complete g q t := mem_complete.mpr ⟨hi, done, follow⟩
  have same : ∀ j ∈ complete g q t, ¬ j.Apart i := by
    intro j hj
    obtain ⟨hj, done, follow⟩ := mem_complete.mp hj
    exact only j hj done follow
  have alone : complete g q t = [i] := by
    have apart : (complete g q t).Pairwise Item.Apart := h.apart.filter _
    match list : complete g q t with
    | [] =>
      rw [list] at mem
      contradiction
    | [j] =>
      rw [list] at mem
      rw [List.mem_singleton.mp mem]
    | j :: k :: rest =>
      exfalso
      rw [list] at apart same
      have jk := (List.pairwise_cons.mp apart).1 k List.mem_cons_self
      have ji := same j List.mem_cons_self
      have ki := same k (List.mem_cons_of_mem _ List.mem_cons_self)
      unfold Item.Apart at jk ji ki
      omega
  have notWhole : (i.production == g.wholeProduction) = false := beq_false_of_ne part
  unfold choices
  rw [complete] at alone
  simp [alone, notWhole, unread, strongest, endingOrder]

end Choices

end State

/-! ### Items and spellings -/

section Spelled

variable [BEq τ] [BEq ν] {n : Numbering τ ν}

/-- The item is at a place of a spelling. -/
def Item.Reads (g : Grammar τ ν) (n : Numbering τ ν) (i : Item) (s : Spelling τ ν) (k : Nat) : Prop :=
  ∃ p, g.productions[i.production]? = some p ∧ s.Of n p ∧ i.place = k

/-- The tokens that may follow a part if it begins at the state. -/
def State.expects (n : Numbering τ ν) (q : State) (part : Part τ ν) : TokenSet :=
  match n.symbol part with
  | .rule r => q.upcoming.getD r 0
  | .token _ => 0

theorem State.expects_eq {q : State} {part : Part τ ν} {r : Nat} (symbol : n.symbol part = .rule r) :
  q.expects n part = q.upcoming.getD r 0
  := by
  rw [expects, symbol]

namespace Item.Reads

variable {i j : Item} {s : Spelling τ ν} {k : Nat}

theorem next? (h : i.Reads g n s k) :
  i.next? g = s.row[k]?.map n.symbol
  := by
  obtain ⟨p, hp, of, rfl⟩ := h
  rw [Item.next?, Item.production?, hp, Option.bind_some, ← Array.getElem?_toList, of.row,
    List.getElem?_map]

theorem behindNext (h : i.Reads g n s k) {part : Part τ ν} (next : s.row[k + 1]? = some part) :
  i.behindNext g = Grammar.beginning g.firsts (n.symbol part)
  := by
  obtain ⟨p, hp, of, rfl⟩ := h
  have symbol : (i.production? g).bind (·.symbols[i.place + 1]?) = some (n.symbol part) := by
    rw [Item.production?, hp, Option.bind_some, ← Array.getElem?_toList, of.row, List.getElem?_map,
      next, Option.map_some]
  rw [Item.behindNext, symbol]

theorem pass (h : i.Reads g n s k) :
  Item.Reads g n { i with place := i.place + 1 } s (k + 1)
  := by
  obtain ⟨p, hp, of, rfl⟩ := h
  exact ⟨p, hp, of, rfl⟩

/-- If the productions of a rule differ, items at the same place of a spelling are not told apart. -/
theorem not_apart (h : i.Reads g n s k) (h' : j.Reads g n s k) {r : Nat}
    (symbol : n.symbol s.head = .rule r) (apart : Grammar.Apart g.productions.toList r) :
  ¬ j.Apart i
  := by
  obtain ⟨p, hp, of, rfl⟩ := h
  obtain ⟨p', hp', of', place⟩ := h'
  rw [← Array.getElem?_toList] at hp hp'
  have same := apart.unique hp hp' (Symbol.rule.inj (of.head.trans symbol))
    (Symbol.rule.inj (of'.head.trans symbol)) (of.row.trans of'.row.symm)
  rintro (ne | ne)
  · exact ne same.symm
  · exact ne place

end Item.Reads

namespace State.Regular

variable {finish : τ} {spellings : List (Spelling τ ν)} {forced : List (ν × τ)} {q : State}
  {i : Item} {s : Spelling τ ν} {part : Part τ ν} {t k : Nat}

/-- What an item asks for may begin, with the tokens behind it. -/
theorem has_expects_of_item (hc : g.Closed) (h : Regular g q) (hi : i ∈ q.items) {r : Nat}
    (symbol : n.symbol part = .rule r) (next : i.next? g = some (n.symbol part))
    (ht : (i.behindNext g).has t = true) :
  (q.expects n part).has t = true
  := by
  have want : Outlook.wantOf? g i = some (r, (i.behindNext g).union (g.forced.getD r 0)) := by
    rw [Outlook.wantOf?, next, symbol]
  rw [expects_eq symbol, h.upcoming]
  apply (upcomingOf_spec hc (h.smallAll hc)).1 i hi _ want
  rw [TokenSet.has_union, ht, Bool.true_or]

variable (hg : Compiled g n finish spellings forced)
include hg

/-- What may follow a rule that may begin is passed on to the lead of its production. -/
theorem has_upcoming_of_lead (hc : g.Closed) (h : Regular g q) {p : Production}
    (hp : p ∈ g.productions) {lead : Lead} (hl : Grammar.leadOf? g.firsts p = some lead)
    (begins : q.upcoming.getD p.rule 0 ≠ 0)
    (ht : lead.behind.has t = true ∨ lead.ends = true ∧ (q.upcoming.getD p.rule 0).has t = true) :
  (q.upcoming.getD lead.rule 0).has t = true
  := by
  obtain ⟨known, hk, covers⟩ := hg.tells hp hl
  rw [h.upcoming] at begins ht ⊢
  have passed := (upcomingOf_spec hc (h.smallAll hc)).2 p.rule begins known hk
  rw [← covers.rule]
  apply passed t
  rw [Outlook.wantOf, TokenSet.has_union, Bool.or_eq_true]
  left
  obtain behind | ⟨ends, follow⟩ := ht
  · split
    · rw [TokenSet.has_union, covers.behind t behind, Bool.true_or]
    · exact covers.behind t behind
  · rw [if_pos (covers.ends ends), TokenSet.has_union, follow, Bool.or_true]

/-- What may follow a part may follow its only part. -/
theorem has_expects_of_single (hc : g.Closed) (h : Regular g q) (hs : s ∈ spellings)
    (row : s.row = [part]) {r : Nat} (symbol : n.symbol part = .rule r)
    (ht : (q.expects n s.head).has t = true) :
  (q.expects n part).has t = true
  := by
  obtain ⟨p, hp, of⟩ := hg.production hs
  have symbols : p.symbols.toList = [.rule r] := by rw [of.row, row, List.map_singleton, symbol]
  rw [expects_eq of.head.symm] at ht
  have begins : q.upcoming.getD p.rule 0 ≠ 0 := by
    intro zero
    rw [zero, TokenSet.not_has_zero] at ht
    contradiction
  rw [expects_eq symbol]
  exact h.has_upcoming_of_lead hg hc hp (Grammar.leadOf?_single symbols) begins (.inr ⟨rfl, ht⟩)

/-- What begins the second part of a spelling that may begin follows the first one. -/
theorem has_expects_of_cons (hc : g.Closed) (h : Regular g q) (hs : s ∈ spellings)
    {second : Part τ ν} {rest : List (Part τ ν)} (row : s.row = part :: second :: rest) {r : Nat}
    (symbol : n.symbol part = .rule r) (begins : q.expects n s.head ≠ 0)
    (ht : (Grammar.beginning g.firsts (n.symbol second)).has t = true) :
  (q.expects n part).has t = true
  := by
  obtain ⟨p, hp, of⟩ := hg.production hs
  have symbols : p.symbols.toList = .rule r :: n.symbol second :: rest.map n.symbol := by
    rw [of.row, row, List.map_cons, List.map_cons, symbol]
  rw [expects_eq of.head.symm] at begins
  rw [expects_eq symbol]
  exact h.has_upcoming_of_lead hg hc hp (Grammar.leadOf?_cons symbols) begins (.inl ht)

/-- A token that begins a spelling that may begin can be read. -/
theorem has_readable_of_spelling (h : Regular g q) (hs : s ∈ spellings) {token : τ}
    (first : s.row.head? = some (.token token)) (begins : q.expects n s.head ≠ 0) :
  q.readable.has (n.tokens.idxOf token) = true
  := by
  obtain ⟨p, hp, of⟩ := hg.production hs
  rw [expects_eq of.head.symm, h.upcoming] at begins
  rw [h.made]
  refine has_readable.mpr (.inr ⟨p.rule, ?_, TokenSet.isInhabited_iff.mpr begins, ?_⟩)
  · by_contra outside
    apply begins
    rw [Array.getD_eq_getD_getElem?, Array.getElem?_eq_none (Nat.le_of_not_lt outside)]
    rfl
  · apply hg.openings.mpr ⟨p, hp, rfl, ?_⟩
    rw [of.row, List.head?_map, first]
    rfl

variable [LawfulBEq τ] [LawfulBEq ν]

/-- The rule of the whole text does not begin. -/
theorem upcoming_whole (hi : g.Indexed) (h : Regular g q) :
  q.upcoming.getD n.ruleCount 0 = 0
  := by
  rw [h.upcoming]
  apply upcomingOf_unused hi
  intro p hp used
  obtain ⟨part, known, same⟩ := hg.exists_known hp used
  exact Nat.lt_irrefl _ (known.rule_lt same)

/-- A token that can be read is asked for by an item, or it begins a spelling that may begin. -/
theorem of_has_readable (hi : g.Indexed) (h : Regular g q) {token : τ} (known : n.Known (.token token))
    (ht : q.readable.has (n.tokens.idxOf token) = true) :
  (∃ i ∈ q.items, i.next? g = some (n.symbol (.token token)))
    ∨ ∃ s ∈ spellings, s.row.head? = some (.token token) ∧ q.expects n s.head ≠ 0
  := by
  rw [h.made] at ht
  obtain asked | ⟨r, _, begins, opens⟩ := has_readable.mp ht
  · exact .inl asked
  · obtain ⟨p, hp, rfl, first⟩ := hg.openings.mp opens
    rw [TokenSet.isInhabited_iff, ← h.upcoming] at begins
    obtain ⟨number, _⟩ | ⟨s, hs, of⟩ := hg.spelled hp
    · rw [number, h.upcoming_whole hg hi] at begins
      contradiction
    · rw [of.row, List.head?_map, Option.map_eq_some_iff] at first
      obtain ⟨part, first, same⟩ := first
      have knownPart := hg.known hs (List.mem_cons_of_mem _ (List.mem_of_head? first))
      obtain rfl := (Numbering.symbol_inj knownPart known).mp same
      refine .inr ⟨s, hs, first, ?_⟩
      rw [expects_eq of.head.symm]
      exact begins

/-- The items behind a part were before it, or are at the second place of a spelling that may
begin. -/
theorem of_mem_itemsBehind (hi : g.Indexed) (h : Regular g q) (known : n.Known part)
    (mem : i ∈ q.itemsBehind g (n.symbol part)) :
  (∃ j ∈ q.items, j.next? g = some (n.symbol part) ∧ i = { j with place := j.place + 1 })
    ∨ ∃ s ∈ spellings, s.row.head? = some part ∧ q.expects n s.head ≠ 0 ∧ i.Reads g n s 1
      ∧ i.follow = q.expects n s.head
  := by
  obtain passed | ⟨m, hm, begins, rfl⟩ := mem_itemsBehind.mp mem
  · exact .inl passed
  · obtain ⟨p, hp, first⟩ := Option.bind_eq_some_iff.mp (hi.startingWith hm)
    rw [TokenSet.isInhabited_iff] at begins
    have follow : followOf g q m = q.upcoming.getD p.rule 0 := by
      rw [followOf, hp, Option.map_some, Option.getD_some]
    obtain ⟨number, _⟩ | ⟨s, hs, of⟩ := hg.spelled (Array.mem_of_getElem? hp)
    · rw [follow, number, h.upcoming_whole hg hi] at begins
      contradiction
    · rw [← Array.getElem?_toList, of.row, List.getElem?_map, Option.map_eq_some_iff,
        ← List.head?_eq_getElem?] at first
      obtain ⟨part', first, same⟩ := first
      have knownPart := hg.known hs (List.mem_cons_of_mem _ (List.mem_of_head? first))
      obtain rfl := (Numbering.symbol_inj knownPart known).mp same
      rw [← expects_eq of.head.symm] at follow
      exact .inr ⟨s, hs, first, follow ▸ begins, ⟨p, hp, of, rfl⟩, follow⟩

omit [LawfulBEq τ] [LawfulBEq ν] in
/-- A spelling that may begin is there behind its first part. -/
theorem exists_mem_itemsBehind (hs : s ∈ spellings) (first : s.row.head? = some part)
    (begins : q.expects n s.head ≠ 0) :
  ∃ i ∈ q.itemsBehind g (n.symbol part), i.Reads g n s 1 ∧ i.follow = q.expects n s.head
  := by
  obtain ⟨p, hp, of⟩ := hg.production hs
  obtain ⟨m, hm⟩ := Array.mem_iff_getElem?.mp hp
  have known := hg.known hs (List.mem_cons_of_mem _ (List.mem_of_head? first))
  have follow : followOf g q m = q.expects n s.head := by
    rw [followOf, hm, Option.map_some, Option.getD_some, expects_eq of.head.symm]
  refine ⟨⟨m, 1, followOf g q m⟩, ?_, ⟨p, hm, of, rfl⟩, follow⟩
  refine mem_itemsBehind.mpr (.inr ⟨m, ?_, ?_, rfl⟩)
  · apply hg.starting known hm
    rw [of.row, List.head?_map, first]
    rfl
  · rw [TokenSet.isInhabited_iff, follow]
    exact begins

end State.Regular

end Spelled

end SourceAtlas.Parsing
