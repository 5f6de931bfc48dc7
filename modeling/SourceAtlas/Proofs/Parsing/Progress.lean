import SourceAtlas.Proofs.Parsing.Soundness

/-!
# Texts that are read without a choice

Where at every token exactly one thing can be done, a text is read by one version. Then it is enough
to follow the states on its stack: before a token productions are ended one after the other, each
taking its states from the stack and putting the state behind its rule there, and then the token is
read or the text is accepted (`Passes`). A text that can be followed to its end in this way is read
(`Passes.read_ne_nil`).
-/

namespace SourceAtlas.Parsing

variable {τ ν : Type} {g : Grammar τ ν} {a b : Automaton}

/-! ### Stacks with one way down -/

/-- A stack without branches and the states on it, from the top to the bottom. -/
inductive Stack.Stands (a : Automaton) : Stack → List State → Prop where
  | bottom {mark state offset : Nat} {q : State} (top : a.states[state]? = some q) :
      Stands a (.node mark state offset []) [q]
  | link {mark state offset : Nat} {q : State} {tree : Tree} {below : Stack} {qs : List State}
      (top : a.states[state]? = some q) (rest : Stands a below qs) :
      Stands a (.node mark state offset [(tree, below)]) (q :: qs)

namespace Stack.Stands

variable {s : Stack} {q : State} {qs : List State}

theorem grows (grows : a.Grows b) (h : s.Stands a qs) :
  s.Stands b qs
  := by
  induction h with
  | bottom top => exact .bottom (grows _ _ top)
  | link top rest ih => exact .link (grows _ _ top) ih

theorem top (h : s.Stands a (q :: qs)) :
  a.states[s.state]? = some q
  := by
  cases h with
  | bottom top => exact top
  | link top rest => exact top

/-- There is one way to take trees from the stack. -/
theorem pop (h : s.Stands a qs) {k : Nat} (hk : k < qs.length) (taken : List Tree) :
  ∃ trees base, s.pop k taken = [(trees, base)] ∧ base.Stands a (qs.drop k)
  := by
  induction k generalizing s qs taken with
  | zero => exact ⟨taken, s, rfl, h⟩
  | succ k ih =>
    cases h with
    | bottom top =>
      rw [List.length_singleton] at hk
      omega
    | @link mark state offset q tree below qs top rest =>
      obtain ⟨trees, base, way, stands⟩ := ih rest (Nat.lt_of_succ_lt_succ hk) (tree :: taken)
      refine ⟨trees, base, ?_, stands⟩
      rw [Stack.pop, Stack.links, List.flatMap_singleton]
      exact way

theorem exists_link (h : s.Stands a (q :: qs)) (below : qs ≠ []) :
  ∃ tree rest, s.links = [(tree, rest)]
  := by
  cases h with
  | bottom top => contradiction
  | @link _ _ _ _ tree rest => exact ⟨tree, rest, rfl⟩

end Stack.Stands

/-- A move to items that are there leads to their state. -/
theorem Automaton.exists_move (ha : a.Lawful g) {n : Nat} {q : State} (top : a.states[n]? = some q)
    {symbol : Symbol} (inhabited : q.itemsBehind g symbol ≠ []) :
  ∃ m, (a.move g n symbol).1 = some m
    ∧ (a.move g n symbol).2.states[m]? = some (q.behind g symbol)
  := by
  obtain ⟨lawful, _, moved⟩ := move_spec ha n symbol
  have isSome : ∃ m, (a.move g n symbol).1 = some m := by
    unfold move
    simp only [top]
    split <;> exact ⟨_, rfl⟩
  obtain ⟨m, hm⟩ := isSome
  obtain ⟨q', q'', before, behind, items, -⟩ := moved m hm
  obtain rfl := Option.some.inj (top.symm.trans before)
  refine ⟨m, hm, ?_⟩
  rw [behind, lawful.made m q'' behind, items]
  rfl

section Work

variable {w : Workspace} {s : Stack} {q : State} {qs : List State}

theorem advance_stands (hw : w.automaton.Lawful g) (h : s.Stands w.automaton (q :: qs)) (offset : Nat)
    {symbol : Symbol} (inhabited : q.itemsBehind g symbol ≠ []) (tree : Tree) :
  Work.Gives g w (Work.advance g s offset symbol tree) fun a o =>
    ∃ s', o = some s' ∧ s'.Stands a (q.behind g symbol :: q :: qs)
  := by
  obtain ⟨lawful, grows, _⟩ := Automaton.move_spec hw s.state symbol
  obtain ⟨m, hm, behind⟩ := Automaton.exists_move hw h.top inhabited
  rw [Work.Gives, Work.run_advance]
  cases moved : w.automaton.move g s.state symbol with
  | mk next a =>
    rw [moved] at lawful grows hm behind
    obtain rfl : next = some m := hm
    exact ⟨⟨lawful, grows⟩, _, rfl, .link behind (h.grows grows)⟩

theorem finish_stands (hw : w.automaton.Lawful g) (h : s.Stands w.automaton (q :: qs)) {m : Nat}
    {p : Production} (hp : g.productions[m]? = some p) {base : State} {rest : List State}
    (below : (q :: qs).drop p.symbols.size = base :: rest)
    (inhabited : base.itemsBehind g (.rule p.rule) ≠ []) :
  Work.Gives g w (Work.finish g s m) fun a ss =>
    ∃ s', ss = [s'] ∧ s'.Stands a (base.behind g (.rule p.rule) :: base :: rest)
  := by
  have deep : p.symbols.size < (q :: qs).length := by
    by_contra short
    rw [List.drop_eq_nil_of_le (Nat.le_of_not_lt short)] at below
    contradiction
  obtain ⟨trees, bottom, way, stands⟩ := h.pop deep []
  rw [below] at stands
  have advanced := advance_stands hw stands s.offset inhabited (Tree.ofChildren p.rule s.offset trees)
  rw [Work.finish, hp]
  simp only [way, Stack.firstEach, List.contains_nil, Bool.false_eq_true, if_false,
    List.filterMapM_cons, List.filterMapM_nil]
  apply advanced.bind
  rintro o w' leads ⟨s', rfl, stands⟩
  exact .pure leads.lawful ⟨s', rfl, stands⟩

end Work

/-! ### One token -/

/-- Productions that are ended one after the other before a token, with their number. -/
inductive Ends (g : Grammar τ ν) (t : Nat) : Nat → List State → List State → Prop where
  | none (qs : List State) : Ends g t 0 qs qs
  | one {k m : Nat} {q base : State} {qs rest qs' : List State} {p : Production}
      (choices : q.choices g t = { ended := [m] }) (production : g.productions[m]? = some p)
      (below : (q :: qs).drop p.symbols.size = base :: rest)
      (inhabited : base.itemsBehind g (.rule p.rule) ≠ [])
      (more : Ends g t k (base.behind g (.rule p.rule) :: base :: rest) qs') :
      Ends g t (k + 1) (q :: qs) qs'

section Step

variable {l : Language} {w : Workspace} {q : State} {qs : List State} {v : Version} {x : Lexeme}
  {others : List Version} {fuel : Nat}

/-- A token that is looked for and found is as good as one that is known. -/
theorem step_scanned {Q : Automaton → Step × List Version → Prop}
    (stands : v.stack.Stands w.automaton (q :: qs)) (scanned : l.scan q.possible v.place = some x)
    (h : Work.Gives l.grammar w (l.step (fuel + 1) v (some x) others) Q) :
  Work.Gives l.grammar w (l.step (fuel + 1) v none others) Q
  := by
  have same : (l.step (fuel + 1) v none others).run w = (l.step (fuel + 1) v (some x) others).run w := by
    have looked : (none <|> l.scan q.possible v.place) = some x := scanned
    have known : (some x <|> l.scan q.possible v.place) = some x := rfl
    have top : (Work.state? v.stack.state).run w = pure (some q, w) := by
      rw [← stands.top]
      rfl
    rw [Language.step, Language.step, StateT.run_bind, StateT.run_bind, top, pure_bind, pure_bind]
    simp only [looked, known]
  rw [Work.Gives, same]
  exact h

/-- Productions that are ended before a known token. -/
theorem step_ends {Q : Automaton → Step × List Version → Prop} {k : Nat} {qs' : List State}
    (hw : w.automaton.Lawful l.grammar) (stands : v.stack.Stands w.automaton qs)
    (ends : Ends l.grammar x.token k qs qs')
    (h : ∀ w' v', w.Leads l.grammar w' → v'.stack.Stands w'.automaton qs' → v'.place = v.place →
      Work.Gives l.grammar w' (l.step fuel v' (some x) others) Q) :
  Work.Gives l.grammar w (l.step (fuel + k) v (some x) others) Q
  := by
  induction ends generalizing w v with
  | none qs => exact h w v ⟨hw, .rfl⟩ stands rfl
  | @one k m q base qs rest qs' p choices production below inhabited more ih =>
    have known : (some x <|> l.scan q.possible v.place) = some x := rfl
    rw [← Nat.add_assoc, Language.step]
    apply Work.Gives.state_bind
    rw [stands.top]
    simp only [known, choices, Bool.false_eq_true, if_false, List.isEmpty_cons, List.mapM_cons,
      List.mapM_nil, pure_bind, bind_assoc]
    apply (finish_stands hw stands production below inhabited).bind
    rintro ss w' leads ⟨s', rfl, stands'⟩
    simp only [List.getLast?_singleton, Option.getD_some, List.dropLast_singleton, List.flatten_nil,
      List.append_nil, List.map_nil]
    apply ih leads.lawful stands'
    intro w'' v'' leads' stands'' place
    exact h w'' v'' (leads.trans leads') stands'' place

/-- A known token is read. -/
theorem step_reads (hw : w.automaton.Lawful l.grammar) (stands : v.stack.Stands w.automaton (q :: qs))
    (reads : q.choices l.grammar x.token = { reads := true })
    (inhabited : q.itemsBehind l.grammar (.token x.token) ≠ []) :
  Work.Gives l.grammar w (l.step (fuel + 1) v (some x) others) fun a r =>
    ∃ v' : Version, r = (.moved v', others) ∧ v'.place = x.after
      ∧ v'.stack.Stands a (q.behind l.grammar (.token x.token) :: q :: qs)
  := by
  have known : (some x <|> l.scan q.possible v.place) = some x := rfl
  rw [Language.step]
  apply Work.Gives.state_bind
  rw [stands.top]
  simp only [known, reads, Bool.false_eq_true, if_false, if_true, List.mapM_nil, pure_bind,
    List.flatten_nil, List.map_nil, List.append_nil]
  apply (advance_stands hw stands x.after.offset inhabited
    (.leaf x.token x.start x.after.offset)).bind
  rintro o w' leads ⟨s', rfl, stands'⟩
  exact .pure leads.lawful ⟨_, rfl, rfl, stands'⟩

/-- A known token on which the text is accepted. -/
theorem step_accepts (hw : w.automaton.Lawful l.grammar)
    (stands : v.stack.Stands w.automaton (q :: qs))
    (accepts : (q.choices l.grammar x.token).accepts = true) (below : qs ≠ []) :
  Work.Gives l.grammar w (l.step (fuel + 1) v (some x) others) fun _ r =>
    ∃ trees, trees ≠ [] ∧ r = (.accepted trees, others)
  := by
  have known : (some x <|> l.scan q.possible v.place) = some x := rfl
  rw [Language.step]
  apply Work.Gives.state_bind
  rw [stands.top]
  simp only [known, accepts, if_true]
  obtain ⟨tree, rest, links⟩ := stands.exists_link below
  apply Work.Gives.pure hw
  exact ⟨_, by simp [links], rfl⟩

end Step

/-! ### Whole texts -/

section Runs

variable {l : Language} {text : List Char} {w : Workspace} {v : Version} {qs : List State}

/-- A version that moves over a token is the only one behind it. -/
theorem round_moved {Q : Automaton → Version → Prop} {stepFuel fuel : Nat} (some : 0 < fuel)
    (h : Work.Gives l.grammar w (l.step stepFuel v none []) fun a r =>
      ∃ v' : Version, r = (.moved v', []) ∧ Q a v') :
  Work.Gives l.grammar w (l.round v.place.offset stepFuel fuel [v] {}) fun a r =>
    ∃ v' : Version, r = { versions := [v'] } ∧ Q a v'
  := by
  obtain ⟨fuel, rfl⟩ := Nat.exists_eq_add_one_of_ne_zero (Nat.ne_zero_of_lt some)
  rw [Language.round]
  simp only [bne_self_eq_false, Bool.false_eq_true, if_false]
  apply h.bind
  rintro r w' leads ⟨v', rfl, hv⟩
  have ended : l.round v.place.offset stepFuel fuel [] { versions := [v'] }
      = pure { versions := [v'] } := by
    cases fuel <;> rfl
  simp only [Work.enqueueAll, List.foldlM_nil, Work.enqueue, pure_bind, ended]
  exact .pure leads.lawful ⟨v', rfl, hv⟩

/-- A version that accepts a text ends. -/
theorem round_accepted {stepFuel fuel : Nat} (some : 0 < fuel)
    (h : Work.Gives l.grammar w (l.step stepFuel v none []) fun _ r =>
      ∃ trees, trees ≠ [] ∧ r = (.accepted trees, [])) :
  Work.Gives l.grammar w (l.round v.place.offset stepFuel fuel [v] {}) fun _ r =>
    ∃ trees, trees ≠ [] ∧ r = { accepted := trees }
  := by
  obtain ⟨fuel, rfl⟩ := Nat.exists_eq_add_one_of_ne_zero (Nat.ne_zero_of_lt some)
  rw [Language.round]
  simp only [bne_self_eq_false, Bool.false_eq_true, if_false]
  apply h.bind
  rintro r w' leads ⟨trees, inhabited, rfl⟩
  have ended : l.round v.place.offset stepFuel fuel [] { accepted := trees }
      = pure { accepted := trees } := by
    cases fuel <;> rfl
  simp only [Work.enqueueAll, List.foldlM_nil, pure_bind, List.nil_append, ended]
  exact .pure leads.lawful ⟨trees, inhabited, rfl⟩

/-- The text is followed from an offset to its end, from the states on a stack. -/
inductive Passes (l : Language) (text : List Char) : Nat → List State → Prop where
  | accept {o k : Nat} {q q' : State} {qs qs' : List State} {x : Lexeme}
      (scanned : l.scan q.possible (.inText text o) = some x) (few : k < 1024)
      (ends : Ends l.grammar x.token k (q :: qs) (q' :: qs'))
      (accepts : (q'.choices l.grammar x.token).accepts = true) (below : qs' ≠ []) :
      Passes l text o (q :: qs)
  | read {o k : Nat} {q q' : State} {qs qs' : List State} {x : Lexeme}
      (scanned : l.scan q.possible (.inText text o) = some x) (few : k < 1024)
      (ends : Ends l.grammar x.token k (q :: qs) (q' :: qs'))
      (reads : q'.choices l.grammar x.token = { reads := true })
      (inhabited : q'.itemsBehind l.grammar (.token x.token) ≠ [])
      (after : x.after = .inText text x.after.offset) (later : o < x.after.offset)
      (inside : x.after.offset ≤ text.length)
      (rest : Passes l text x.after.offset (q'.behind l.grammar (.token x.token) :: q' :: qs')) :
      Passes l text o (q :: qs)

/-- A token is looked for, and productions are ended before it. -/
theorem step_passes {Q : Automaton → Step × List Version → Prop} {q : State} {qs' : List State}
    {x : Lexeme} {k stepFuel : Nat} (hw : w.automaton.Lawful l.grammar)
    (stands : v.stack.Stands w.automaton (q :: qs)) (scanned : l.scan q.possible v.place = some x)
    (ends : Ends l.grammar x.token k (q :: qs) qs') (steps : k < stepFuel)
    (h : ∀ fuel w' v', w.Leads l.grammar w' → v'.stack.Stands w'.automaton qs' →
      Work.Gives l.grammar w' (l.step (fuel + 1) v' (some x) []) Q) :
  Work.Gives l.grammar w (l.step stepFuel v none []) Q
  := by
  obtain ⟨fuel, rfl⟩ : ∃ fuel, stepFuel = (fuel + k) + 1 := ⟨stepFuel - 1 - k, by omega⟩
  apply step_scanned stands scanned
  rw [Nat.add_right_comm]
  apply step_ends hw stands ends
  intro w' v' leads stands' _
  exact h fuel w' v' leads stands'

theorem run_passes {o stepFuel fuel : Nat} (passes : Passes l text o qs)
    (hw : w.automaton.Lawful l.grammar) (stands : v.stack.Stands w.automaton qs)
    (place : v.place = .inText text o) (steps : 1024 ≤ stepFuel) (enough : text.length - o < fuel)
    (accepted : List Tree) :
  Work.Gives l.grammar w (l.run stepFuel fuel [v] accepted) fun _ trees => trees ≠ []
  := by
  induction passes generalizing w v fuel accepted with
  | @accept o k q q' qs qs' x scanned few ends accepts below =>
    obtain ⟨fuel, rfl⟩ := Nat.exists_eq_add_one_of_ne_zero (Nat.ne_zero_of_lt enough)
    rw [← place] at scanned
    have step : Work.Gives l.grammar w (l.step stepFuel v none []) fun _ r =>
        ∃ trees, trees ≠ [] ∧ r = (.accepted trees, []) := by
      apply step_passes hw stands scanned ends (by omega)
      intro fuel w' v' leads stands'
      exact step_accepts leads.lawful stands' accepts below
    rw [Language.run]
    simp only [List.foldl_nil]
    apply (round_accepted (by omega) step).bind
    rintro r w' leads ⟨trees, inhabited, rfl⟩
    have ended : l.run stepFuel fuel [] (accepted ++ trees) = pure (accepted ++ trees) := by
      cases fuel <;> rfl
    simp only [ended]
    exact .pure leads.lawful (by simp [inhabited])
  | @read o k q q' qs qs' x scanned few ends reads inhabited after later inside rest ih =>
    obtain ⟨fuel, rfl⟩ := Nat.exists_eq_add_one_of_ne_zero (Nat.ne_zero_of_lt enough)
    rw [← place] at scanned
    have step : Work.Gives l.grammar w (l.step stepFuel v none []) fun a r =>
        ∃ v' : Version, r = (.moved v', []) ∧ v'.place = x.after
          ∧ v'.stack.Stands a (q'.behind l.grammar (.token x.token) :: q' :: qs') := by
      apply step_passes hw stands scanned ends (by omega)
      intro fuel w' v' leads stands'
      exact step_reads leads.lawful stands' reads inhabited
    rw [Language.run]
    simp only [List.foldl_nil]
    apply (round_moved (by omega) step).bind
    rintro r w' leads ⟨v', rfl, place', stands'⟩
    apply ih leads.lawful stands' (place'.trans after) (by omega)

/-- A text that is followed to its end is read. -/
theorem Passes.read_ne_nil {start : Nat} (h : Passes l text start [l.grammar.startState]) :
  l.read start (text.drop start) ≠ []
  := by
  have lawful := Automaton.start_lawful l.grammar
  have bottom : (Language.firstVersion (text.drop start) start).stack.Stands l.workspace.automaton
      [l.grammar.startState] := .bottom lawful.start
  have steps : 1024 ≤ Language.stepsFor (text.drop start).length := by
    rw [Language.stepsFor]
    omega
  have enough : text.length - start < (text.drop start).length + 2 := by
    rw [List.length_drop]
    omega
  exact (run_passes h lawful bottom rfl steps enough []).2

end Runs

end SourceAtlas.Parsing
