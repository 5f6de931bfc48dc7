import SourceAtlas.Proofs.Parsing.Progress
import SourceAtlas.Proofs.Parsing.Regular

/-!
# Following a text through its states

A state is known if its items are: each is at a place of a spelling, with the tokens that may follow it
(`State.Holds`). Behind a part a known state is known again (`State.Holds.behind`), and what is done on
a token is read off the entries: it is read if an entry asks for it and none is complete
(`State.Holds.reads`), and a production is ended if its entry alone is complete (`State.Holds.ends`).
-/

namespace SourceAtlas.Parsing

open Grammar (Numbering Spelling Compiled)

variable {τ ν : Type}

/-- A place of a spelling with the tokens that may follow it. -/
structure Entry (τ ν : Type) where
  spelling : Spelling τ ν
  place : Nat
  follow : TokenSet

namespace Entry

/-- The part behind the place. -/
def next? (e : Entry τ ν) : Option (Part τ ν) :=
  e.spelling.row[e.place]?

/-- The entry behind the part that it asks for. -/
def pass (e : Entry τ ν) : Entry τ ν :=
  { e with place := e.place + 1 }

end Entry

section Holds

variable [BEq τ] [BEq ν] {g : Grammar τ ν} {n : Numbering τ ν} {spellings : List (Spelling τ ν)}
  {q : State} {entries : List (Entry τ ν)} {e : Entry τ ν} {i : Item} {part : Part τ ν} {t : Nat}

/-- The tokens that may follow the part behind the place of an entry. -/
def Entry.behindNext (g : Grammar τ ν) (n : Numbering τ ν) (e : Entry τ ν) : TokenSet :=
  match e.spelling.row[e.place + 1]? with
  | some part => Grammar.beginning g.firsts (n.symbol part)
  | none => e.follow

/-- The item is at the place of the entry, and the same tokens may follow. -/
structure Item.Is (g : Grammar τ ν) (n : Numbering τ ν) (i : Item) (e : Entry τ ν) : Prop where
  reads : i.Reads g n e.spelling e.place
  follow : i.follow = e.follow

namespace Item.Is

theorem next? (h : i.Is g n e) :
  i.next? g = e.next?.map n.symbol
  := h.reads.next?

theorem next?_eq_none (h : i.Is g n e) :
  i.next? g = none ↔ e.next? = none
  := by
  rw [h.next?, Option.map_eq_none_iff]

theorem behindNext (h : i.Is g n e) :
  i.behindNext g = e.behindNext g n
  := by
  obtain ⟨⟨p, hp, of, place⟩, follow⟩ := h
  have symbol : (i.production? g).bind (·.symbols[i.place + 1]?)
      = e.spelling.row[e.place + 1]?.map n.symbol := by
    rw [Item.production?, hp, Option.bind_some, ← Array.getElem?_toList, of.row, List.getElem?_map,
      place]
  rw [Item.behindNext, symbol, Entry.behindNext]
  cases e.spelling.row[e.place + 1]? with
  | none => exact follow
  | some part => rfl

theorem pass (h : i.Is g n e) :
  Item.Is g n { i with place := i.place + 1 } e.pass
  := ⟨h.reads.pass, h.follow⟩

end Item.Is

namespace State

/-- The items of the state are the entries. -/
structure Holds (g : Grammar τ ν) (n : Numbering τ ν) (spellings : List (Spelling τ ν)) (q : State)
    (entries : List (Entry τ ν)) : Prop where
  regular : q.Regular g
  spelled : ∀ e ∈ entries, e.spelling ∈ spellings
  exists_entry : ∀ i ∈ q.items, ∃ e ∈ entries, i.Is g n e
  exists_item : ∀ e ∈ entries, ∃ i ∈ q.items, i.Is g n e

variable {finish : τ} {forced : List (ν × τ)}

namespace Holds

/-- Behind a part are the items that asked for it and the spellings that begin with it. -/
theorem of_behind [LawfulBEq τ] [LawfulBEq ν] (hg : Compiled g n finish spellings forced)
    (hi : g.Indexed) (hc : g.Closed) (h : q.Regular g) (known : n.Known part)
    (passed : List (Entry τ ν)) (begun : List (Spelling τ ν))
    (spelled : ∀ e ∈ passed, e.spelling ∈ spellings)
    (asks : ∀ i ∈ q.items, i.next? g = some (n.symbol part) → ∃ e ∈ passed, i.Is g n e)
    (asked : ∀ e ∈ passed, ∃ i ∈ q.items, i.Is g n e ∧ i.next? g = some (n.symbol part))
    (begins : ∀ s ∈ spellings, s.row.head? = some part → q.expects n s.head ≠ 0 → s ∈ begun)
    (started : ∀ s ∈ begun, s ∈ spellings ∧ s.row.head? = some part ∧ q.expects n s.head ≠ 0) :
  (q.behind g (n.symbol part)).Holds g n spellings
    (passed.map Entry.pass ++ begun.map fun s => ⟨s, 1, q.expects n s.head⟩)
  := by
  constructor
  · exact h.behind hi hc hg.nodup (n.symbol part)
  · intro e he
    obtain he | he := List.mem_append.mp he
    · obtain ⟨e, mem, rfl⟩ := List.mem_map.mp he
      exact spelled e mem
    · obtain ⟨s, hs, rfl⟩ := List.mem_map.mp he
      exact (started s hs).1
  · intro i mem
    obtain ⟨j, hj, next, rfl⟩ | ⟨s, hs, first, expected, reads, follow⟩ :=
      h.of_mem_itemsBehind hg hi known mem
    · obtain ⟨e, he, is⟩ := asks j hj next
      exact ⟨e.pass, List.mem_append_left _ (List.mem_map_of_mem he), is.pass⟩
    · have entry : (⟨s, 1, q.expects n s.head⟩ : Entry τ ν)
          ∈ begun.map fun s => ⟨s, 1, q.expects n s.head⟩ :=
        List.mem_map.mpr ⟨s, begins s hs first expected, rfl⟩
      exact ⟨_, List.mem_append_right _ entry, reads, follow⟩
  · intro e he
    obtain he | he := List.mem_append.mp he
    · obtain ⟨e, mem, rfl⟩ := List.mem_map.mp he
      obtain ⟨i, hi, is, next⟩ := asked e mem
      exact ⟨_, mem_itemsBehind.mpr (.inl ⟨i, hi, next, rfl⟩), is.pass⟩
    · obtain ⟨s, hs, rfl⟩ := List.mem_map.mp he
      obtain ⟨spelled, first, expected⟩ := started s hs
      obtain ⟨i, hi, reads, follow⟩ := Regular.exists_mem_itemsBehind hg spelled first expected
      exact ⟨i, hi, reads, follow⟩

variable (h : q.Holds g n spellings entries)
include h

theorem ne_nil (he : e ∈ entries) (next : e.next? = some part) :
  q.itemsBehind g (n.symbol part) ≠ []
  := by
  obtain ⟨i, hi, is⟩ := h.exists_item e he
  apply List.ne_nil_of_mem
  refine mem_itemsBehind.mpr (.inl ⟨i, hi, ?_, rfl⟩)
  rw [is.next?, next]
  rfl

/-- Behind a part that only entries ask for are these. -/
theorem behind [LawfulBEq τ] [LawfulBEq ν] (hg : Compiled g n finish spellings forced)
    (hi : g.Indexed) (hc : g.Closed) (known : n.Known part) (begun : List (Spelling τ ν))
    (begins : ∀ s ∈ spellings, s.row.head? = some part → q.expects n s.head ≠ 0 → s ∈ begun)
    (started : ∀ s ∈ begun, s ∈ spellings ∧ s.row.head? = some part ∧ q.expects n s.head ≠ 0) :
  (q.behind g (n.symbol part)).Holds g n spellings
    ((entries.filter fun e => e.next? = some part).map Entry.pass
      ++ begun.map fun s => ⟨s, 1, q.expects n s.head⟩)
  := by
  apply of_behind hg hi hc h.regular known _ begun _ _ _ begins started
  · intro e he
    exact h.spelled e (List.mem_of_mem_filter he)
  · intro i hi next
    obtain ⟨e, he, is⟩ := h.exists_entry i hi
    refine ⟨e, List.mem_filter.mpr ⟨he, ?_⟩, is⟩
    rw [is.next?, Option.map_eq_some_iff] at next
    obtain ⟨part', next, same⟩ := next
    have known' := hg.known (h.spelled e he) (List.mem_cons_of_mem _ (List.mem_of_getElem? next))
    rw [next, (Numbering.symbol_inj known' known).mp same, decide_eq_true_eq]
  · intro e he
    obtain ⟨he, next⟩ := List.mem_filter.mp he
    obtain ⟨i, hi, is⟩ := h.exists_item e he
    refine ⟨i, hi, is, ?_⟩
    rw [is.next?, decide_eq_true_eq.mp next]
    rfl

/-! ### What may begin -/

/-- Parts and tokens to which the entries and the parts lead are all that may begin and follow. -/
theorem of_has_expects [LawfulBEq τ] [LawfulBEq ν] {R : Part τ ν → Prop} {T : Nat → Prop}
    (hg : Compiled g n finish spellings forced) (closed : Outlook.Leading g (n.Numbers R) T)
    (asked : ∀ e ∈ entries, ∀ part r, e.next? = some part → n.symbol part = .rule r →
      R part ∧ ∀ t, (e.behindNext g n).has t = true → T t)
    (known : n.Known part) (ht : (q.expects n part).has t = true) :
  R part ∧ T t
  := by
  cases symbol : n.symbol part with
  | token t' =>
    rw [expects, symbol, TokenSet.not_has_zero] at ht
    contradiction
  | rule r =>
    rw [expects_eq symbol, h.regular.upcoming] at ht
    rw [← Numbering.numbers_iff (R := R) known symbol]
    refine of_has_upcomingOf ?_ closed ht
    intro i hi want wanted
    obtain ⟨e, he, is⟩ := h.exists_entry i hi
    unfold Outlook.wantOf? at wanted
    split at wanted
    · next r next =>
      obtain rfl := Option.some.inj wanted
      rw [is.next?, Option.map_eq_some_iff] at next
      obtain ⟨part, next, symbol⟩ := next
      obtain ⟨hr, behind⟩ := asked e he part r next symbol
      have known := hg.known (h.spelled e he) (List.mem_cons_of_mem _ (List.mem_of_getElem? next))
      have numbers : n.Numbers R r := ⟨part, known, symbol, hr⟩
      refine ⟨numbers, ?_⟩
      intro t ht
      rw [TokenSet.has_union, Bool.or_eq_true, is.behindNext] at ht
      exact ht.elim (behind t) (closed.forced r numbers t)
    · contradiction

/-- Where the entries ask for tokens alone nothing begins. -/
theorem expects_eq_zero [LawfulBEq τ] [LawfulBEq ν] (hg : Compiled g n finish spellings forced)
    (tokens : ∀ e ∈ entries, ∀ part r, e.next? = some part → n.symbol part ≠ .rule r)
    (known : n.Known part) :
  q.expects n part = 0
  := by
  apply Nat.eq_of_testBit_eq
  intro t
  rw [Nat.zero_testBit]
  by_contra has
  have closed : Outlook.Leading g (n.Numbers fun _ => False) fun _ => False := by
    constructor <;> rintro r ⟨_, _, _, false⟩ <;> contradiction
  refine (h.of_has_expects hg closed ?_ known (eq_true_of_ne_false has)).1
  intro e he part r next symbol
  exact absurd symbol (tokens e he part r next)

/-- A token is looked for if an entry asks for it, a spelling that may begin begins with it, or it may
follow a complete entry. -/
theorem of_has_possible [LawfulBEq τ] [LawfulBEq ν] (hg : Compiled g n finish spellings forced)
    (hi : g.Indexed) {token : τ} (known : n.Known (.token token))
    (ht : q.possible.has (n.tokens.idxOf token) = true) :
  (∃ e ∈ entries, e.next? = some (.token token))
    ∨ (∃ s ∈ spellings, s.row.head? = some (.token token) ∧ q.expects n s.head ≠ 0)
    ∨ ∃ e ∈ entries, e.next? = none ∧ e.follow.has (n.tokens.idxOf token) = true
  := by
  obtain readable | ⟨i, hi, done, follow⟩ := h.regular.has_possible.mp ht
  · obtain ⟨i, hi, next⟩ | begins := h.regular.of_has_readable hg hi known readable
    · obtain ⟨e, he, is⟩ := h.exists_entry i hi
      rw [is.next?, Option.map_eq_some_iff] at next
      obtain ⟨part, next, same⟩ := next
      have known' := hg.known (h.spelled e he) (List.mem_cons_of_mem _ (List.mem_of_getElem? next))
      exact .inl ⟨e, he, (Numbering.symbol_inj known' known).mp same ▸ next⟩
    · exact .inr (.inl begins)
  · obtain ⟨e, he, is⟩ := h.exists_entry i hi
    exact .inr (.inr ⟨e, he, is.next?_eq_none.mp done, is.follow ▸ follow⟩)

/-- A token that an entry asks for is looked for. -/
theorem has_readable_of_next {token : τ} (he : e ∈ entries) (next : e.next? = some (.token token)) :
  q.readable.has (n.tokens.idxOf token) = true
  := by
  obtain ⟨i, hi, is⟩ := h.exists_item e he
  rw [h.regular.made]
  refine has_readable.mpr (.inl ⟨i, hi, ?_⟩)
  rw [is.next?, next]
  rfl

/-! ### What is done on a token -/

/-- A token that an entry asks for is read where no entry is complete before it. -/
theorem reads {token : τ} (he : e ∈ entries) (next : e.next? = some (.token token))
    (incomplete : ∀ e ∈ entries, e.next? = none → e.follow.has (n.tokens.idxOf token) = false) :
  q.choices g (n.tokens.idxOf token) = { reads := true }
  := by
  rw [choices_reads, h.has_readable_of_next he next]
  intro i hi done
  obtain ⟨e, he, is⟩ := h.exists_entry i hi
  rw [is.follow]
  exact incomplete e he (is.next?_eq_none.mp done)

/-- The only entry that is complete before a token is ended. -/
theorem ends (hi : g.Indexed) (he : e ∈ entries) (done : e.next? = none)
    (follow : e.follow.has t = true)
    (only : ∀ e' ∈ entries, e'.next? = none → e'.follow.has t = true →
      e'.spelling = e.spelling ∧ e'.place = e.place)
    {r : Nat} (symbol : n.symbol e.spelling.head = .rule r)
    (apart : Grammar.Apart g.productions.toList r)
    (part : e.spelling.row.map n.symbol ≠ [.rule 0]) (unread : q.readable.has t = false) :
  ∃ m p, q.choices g t = { ended := [m] } ∧ g.productions[m]? = some p ∧ e.spelling.Of n p
  := by
  obtain ⟨i, hi', is⟩ := h.exists_item e he
  obtain ⟨p, hp, of, place⟩ := is.reads
  refine ⟨i.production, p, ?_, hp, of⟩
  apply choices_ends h.regular hi' (is.next?_eq_none.mpr done) (is.follow ▸ follow) _ _ unread
  · intro j hj done' follow'
    obtain ⟨e', he', is'⟩ := h.exists_entry j hj
    obtain ⟨spelling, place⟩ := only e' he' (is'.next?_eq_none.mp done') (is'.follow ▸ follow')
    exact is.reads.not_apart (spelling ▸ place ▸ is'.reads) symbol apart
  · intro whole
    obtain ⟨w, hw, symbols, _⟩ := hi.whole
    rw [whole, hw] at hp
    obtain rfl := Option.some.inj hp
    apply part
    rw [← of.row, symbols]

/-- Ending the only complete entry leads behind its rule. -/
theorem ends_one (hi : g.Indexed) (he : e ∈ entries) (done : e.next? = none)
    (follow : e.follow.has t = true)
    (only : ∀ e' ∈ entries, e'.next? = none → e'.follow.has t = true →
      e'.spelling = e.spelling ∧ e'.place = e.place)
    {r : Nat} (symbol : n.symbol e.spelling.head = .rule r)
    (apart : Grammar.Apart g.productions.toList r)
    (part : e.spelling.row.map n.symbol ≠ [.rule 0]) (unread : q.readable.has t = false)
    {base : State} {qs rest qs' : List State} {k : Nat}
    (below : (q :: qs).drop e.spelling.row.length = base :: rest)
    (inhabited : base.itemsBehind g (n.symbol e.spelling.head) ≠ [])
    (more : Ends g t k (base.behind g (n.symbol e.spelling.head) :: base :: rest) qs') :
  Ends g t (k + 1) (q :: qs) qs'
  := by
  obtain ⟨m, p, choices, production, of⟩ := h.ends hi he done follow only symbol apart part unread
  have size : p.symbols.size = e.spelling.row.length := by
    rw [← Array.length_toList, of.row, List.length_map]
  apply Ends.one choices production (size ▸ below)
  · rw [of.head]
    exact inhabited
  · rw [of.head]
    exact more

end Holds

end State

end Holds

end SourceAtlas.Parsing
