import SourceAtlas.Proofs.Tree.Preorder

/-!
# Parents and children in a walk

Only the depths of its visits tell how a walk is nested: the parent of a visit is the nearest
earlier visit one level above it. The relation `Unfolding` describes a walk together with the
parents of its visits, along the recursion of the walk and without any reference to depths.
The walk from some identities is an unfolding whose parents are the ones that are read off the
depths (`unfolding_visitAll`). The facts about nesting are inductions along this relation: in
the order of the visits, the children of an identity that is expanded are its neighbours, and
nothing is expanded twice.
-/

namespace SourceAtlas.Tree

variable {g : Graph} {direction : Direction}

/-! ### Nesting, read off the depths -/

/-- The nearest of the earlier visits that is one level above a depth. -/
def nearest (earlier : List Visit) (depth : Nat) : Option Visit :=
  earlier.reverse.find? fun p => p.depth + 1 == depth

/-- The visits that have a parent, in order, each behind its parent. -/
def kinships (earlier : List Visit) : List Visit → List (Visit × Visit)
  | [] => []
  | v :: rest =>
    match nearest earlier v.depth with
    | some p => (p, v) :: kinships (earlier ++ [v]) rest
    | none => kinships (earlier ++ [v]) rest

/-- The identities of parents and children, in the order of the children's lines. -/
def pairs (kin : List (Visit × Visit)) : List (String × String) :=
  kin.map fun k => (k.1.identity, k.2.identity)

/-- The children of an identity among pairs of parents and children. -/
def childrenIn (x : String) (family : List (String × String)) : List String :=
  (family.filter (·.1 == x)).map Prod.snd

/-- The identities of the visits that are not cyclic. -/
def expanded (visits : List Visit) : List String :=
  (visits.filter (!·.cyclic)).map Visit.identity

@[simp]
theorem expanded_nil :
  expanded [] = []
  := rfl

@[simp]
theorem expanded_cons_cyclic (x : String) (depth : Nat) (visits : List Visit) :
  expanded (⟨x, depth, true⟩ :: visits) = expanded visits
  := rfl

@[simp]
theorem expanded_cons_fresh (x : String) (depth : Nat) (visits : List Visit) :
  expanded (⟨x, depth, false⟩ :: visits) = x :: expanded visits
  := rfl

@[simp]
theorem expanded_append (visits visits' : List Visit) :
  expanded (visits ++ visits') = expanded visits ++ expanded visits'
  := by
  simp [expanded]

theorem nearest_concat {earlier : List Visit} {v : Visit} {depth : Nat}
    (above : v.depth + 1 = depth) :
  nearest (earlier ++ [v]) depth = some v
  := by
  simp [nearest, above]

/-- Visits that are at least as deep do not hide the nearest visit above. -/
theorem nearest_append_of_le {earlier visits : List Visit} {depth : Nat}
    (deep : ∀ v ∈ visits, depth ≤ v.depth) :
  nearest (earlier ++ visits) depth = nearest earlier depth
  := by
  have none : visits.reverse.find? (fun p => p.depth + 1 == depth) = none := by
    apply List.find?_eq_none.mpr
    intro v hv
    have := deep v (List.mem_reverse.mp hv)
    simp only [beq_iff_eq]
    omega
  rw [nearest, List.reverse_append, List.find?_append, none]
  rfl

theorem kinships_cons_of_nearest {earlier : List Visit} {p v : Visit}
    (h : nearest earlier v.depth = some p) (visits : List Visit) :
  kinships earlier (v :: visits) = (p, v) :: kinships (earlier ++ [v]) visits
  := by
  rw [kinships, h]

theorem kinships_append (earlier visits visits' : List Visit) :
  kinships earlier (visits ++ visits')
    = kinships earlier visits ++ kinships (earlier ++ visits) visits'
  := by
  induction visits generalizing earlier with
  | nil => simp [kinships]
  | cons v visits ih =>
    simp only [List.cons_append, kinships]
    split <;> simp [ih]

/-- The kinships of a visit with some visits below it and the rest behind these. -/
theorem kinships_block {earlier : List Visit} {p : Visit} {depth : Nat}
    (near : nearest earlier depth = some p) {x : String} {cyclic : Bool}
    (below rest : List Visit) :
  kinships earlier (⟨x, depth, cyclic⟩ :: (below ++ rest))
    = (p, ⟨x, depth, cyclic⟩)
      :: (kinships (earlier ++ [⟨x, depth, cyclic⟩]) below
        ++ kinships (earlier ++ ⟨x, depth, cyclic⟩ :: below) rest)
  := by
  rw [kinships_cons_of_nearest near, kinships_append]
  simp

theorem length_kinships_le (earlier visits : List Visit) :
  (kinships earlier visits).length ≤ visits.length
  := by
  induction visits generalizing earlier with
  | nil => apply Nat.le_refl
  | cons v visits ih =>
    have := ih (earlier ++ [v])
    rw [kinships]
    split <;> simp only [List.length_cons] <;> omega

/-- If every visit occurs as a child, then each has a parent among the visits before it. -/
theorem exists_nearest {earlier visits : List Visit}
    (all : (kinships earlier visits).map Prod.snd = visits) {before after : List Visit}
    {v : Visit} (split : visits = before ++ v :: after) :
  ∃ p, nearest (earlier ++ before) v.depth = some p ∧ (p, v) ∈ kinships earlier visits
  := by
  induction visits generalizing earlier before with
  | nil => simp at split
  | cons w visits ih =>
    cases found : nearest earlier w.depth with
    | none =>
      have length := congrArg List.length all
      have le := length_kinships_le (earlier ++ [w]) visits
      simp only [kinships, found, List.length_map, List.length_cons] at length
      omega
    | some p =>
      rw [kinships_cons_of_nearest found] at all ⊢
      cases before with
      | nil =>
        obtain ⟨rfl, rfl⟩ := List.cons.inj split
        exact ⟨p, by simpa using found, List.mem_cons_self⟩
      | cons b before =>
        obtain ⟨rfl, rest⟩ := List.cons.inj split
        obtain ⟨q, near, mem⟩ := ih (List.cons.inj all).2 rest
        rw [List.append_assoc] at near
        exact ⟨q, near, List.mem_cons_of_mem _ mem⟩

@[simp]
theorem childrenIn_pairs_cons (x : String) (p v : Visit) (kin : List (Visit × Visit)) :
  childrenIn x (pairs ((p, v) :: kin))
    = if x = p.identity then v.identity :: childrenIn x (pairs kin) else childrenIn x (pairs kin)
  := by
  by_cases same : x = p.identity
  · simp [childrenIn, pairs, same]
  · simp [childrenIn, pairs, same, Ne.symm same]

@[simp]
theorem childrenIn_pairs_append (x : String) (kin kin' : List (Visit × Visit)) :
  childrenIn x (pairs (kin ++ kin')) = childrenIn x (pairs kin) ++ childrenIn x (pairs kin')
  := by
  simp [childrenIn, pairs]

/-! ### The walk with its kinships -/

/-- `Unfolding g direction p visited xs visits kin visited'`: below the visit `p`, with some
identities visited before, the walk from `xs` makes these visits, whose parents are as told,
and leaves `visited'` visited. -/
inductive Unfolding (g : Graph) (direction : Direction) :
    Visit → List String → List String → List Visit → List (Visit × Visit) → List String →
    Prop where
  | done (p : Visit) (visited : List String) :
      Unfolding g direction p visited [] [] [] visited
  | again {p : Visit} {visited : List String} {x : String} {xs : List String}
      {visits : List Visit} {kin : List (Visit × Visit)} {visited' : List String} :
      x ∈ visited → Unfolding g direction p visited xs visits kin visited' →
      Unfolding g direction p visited (x :: xs) (⟨x, p.depth + 1, true⟩ :: visits)
        ((p, ⟨x, p.depth + 1, true⟩) :: kin) visited'
  | expand {p : Visit} {visited : List String} {x : String} {xs : List String}
      {below rest : List Visit} {kinBelow kinRest : List (Visit × Visit)}
      {between visited' : List String} :
      x ∉ visited →
      Unfolding g direction ⟨x, p.depth + 1, false⟩ (x :: visited)
        (g.neighbours direction x) below kinBelow between →
      Unfolding g direction p between xs rest kinRest visited' →
      Unfolding g direction p visited (x :: xs)
        (⟨x, p.depth + 1, false⟩ :: (below ++ rest))
        ((p, ⟨x, p.depth + 1, false⟩) :: (kinBelow ++ kinRest)) visited'

namespace Unfolding

variable {p : Visit} {visited xs visited' : List String} {visits : List Visit}
  {kin : List (Visit × Visit)}

theorem depth_lt (h : Unfolding g direction p visited xs visits kin visited') :
  ∀ v ∈ visits, p.depth < v.depth
  := by
  induction h with
  | done => simp
  | again _ _ ih => simpa using ih
  | expand _ _ _ ihBelow ihRest =>
    intro v hv
    obtain rfl | hv := List.mem_cons.mp hv
    · apply Nat.lt_succ_self
    · obtain hv | hv := List.mem_append.mp hv
      · apply Nat.lt_of_succ_lt (ihBelow v hv)
      · apply ihRest v hv

theorem visited_eq (h : Unfolding g direction p visited xs visits kin visited') :
  visited' = (expanded visits).reverse ++ visited
  := by
  induction h with
  | done => rfl
  | again _ _ ih => apply ih
  | expand _ _ _ ihBelow ihRest =>
    rw [ihRest, ihBelow]
    simp

theorem mem_visited (h : Unfolding g direction p visited xs visits kin visited') {x : String} :
  x ∈ visited' ↔ x ∈ expanded visits ∨ x ∈ visited
  := by
  rw [h.visited_eq]
  simp

theorem nodup_visited (h : Unfolding g direction p visited xs visits kin visited')
    (distinct : visited.Nodup) :
  visited'.Nodup
  := by
  induction h with
  | done => apply distinct
  | again _ _ ih => apply ih distinct
  | expand fresh _ _ ihBelow ihRest =>
    apply ihRest
    apply ihBelow
    apply List.nodup_cons.mpr
    exact ⟨fresh, distinct⟩

/-- What was visited before is not expanded again. -/
theorem not_mem_expanded (h : Unfolding g direction p visited xs visits kin visited')
    {x : String} (known : x ∈ visited) :
  x ∉ expanded visits
  := by
  induction h with
  | done => simp
  | again _ _ ih => apply ih known
  | expand fresh below _ ihBelow ihRest =>
    simp only [expanded_cons_fresh, expanded_append, List.mem_cons, List.mem_append, not_or]
    and_intros
    · rintro rfl
      exact fresh known
    · apply ihBelow (List.mem_cons_of_mem _ known)
    · apply ihRest
      apply below.mem_visited.mpr (.inr (List.mem_cons_of_mem _ known))

theorem subset_visited (h : Unfolding g direction p visited xs visits kin visited') :
  ∀ x ∈ xs, x ∈ visited'
  := by
  induction h with
  | done => simp
  | again known rest ih =>
    intro y hy
    obtain rfl | hy := List.mem_cons.mp hy
    · apply rest.mem_visited.mpr (.inr known)
    · apply ih y hy
  | expand _ below rest _ ihRest =>
    intro y hy
    obtain rfl | hy := List.mem_cons.mp hy
    · apply rest.mem_visited.mpr
      apply Or.inr
      apply below.mem_visited.mpr
      apply Or.inr List.mem_cons_self
    · apply ihRest y hy

/-- The neighbours of what is expanded are visited in the end. -/
theorem closed (h : Unfolding g direction p visited xs visits kin visited') {x y : String}
    (hx : x ∈ expanded visits) (leads : g.Leads direction x y) :
  y ∈ visited'
  := by
  induction h with
  | done => simp at hx
  | again _ _ ih => apply ih hx
  | expand _ below rest ihBelow ihRest =>
    simp only [expanded_cons_fresh, expanded_append, List.mem_cons, List.mem_append] at hx
    obtain rfl | hx | hx := hx
    · apply rest.mem_visited.mpr
      apply Or.inr
      apply below.subset_visited
      apply Graph.mem_neighbours.mpr leads
    · apply rest.mem_visited.mpr
      apply Or.inr (ihBelow hx)
    · apply ihRest hx

/-- Only what can be reached is visited. -/
theorem reachable (h : Unfolding g direction p visited xs visits kin visited') {root : String}
    (start : ∀ x ∈ xs, g.Reachable direction root x) :
  ∀ v ∈ visits, g.Reachable direction root v.identity
  := by
  induction h with
  | done => simp
  | again _ _ ih =>
    intro v hv
    obtain rfl | hv := List.mem_cons.mp hv
    · apply start _ List.mem_cons_self
    · apply ih (fun x hx => start x (List.mem_cons_of_mem _ hx)) v hv
  | expand _ _ _ ihBelow ihRest =>
    have first := start _ List.mem_cons_self
    intro v hv
    obtain rfl | hv := List.mem_cons.mp hv
    · apply first
    · obtain hv | hv := List.mem_append.mp hv
      · apply ihBelow _ v hv
        intro y hy
        apply first.tail (Graph.mem_neighbours.mp hy)
      · apply ihRest (fun x hx => start x (List.mem_cons_of_mem _ hx)) v hv

theorem map_snd (h : Unfolding g direction p visited xs visits kin visited') :
  kin.map Prod.snd = visits
  := by
  induction h with
  | done => rfl
  | again _ _ ih => rw [List.map_cons, ih]
  | expand _ _ _ ihBelow ihRest => rw [List.map_cons, List.map_append, ihBelow, ihRest]

theorem parent_fresh (h : Unfolding g direction p visited xs visits kin visited')
    (fresh : p.cyclic = false) :
  ∀ k ∈ kin, k.1.cyclic = false
  := by
  induction h with
  | done => simp
  | again _ _ ih =>
    intro k hk
    obtain rfl | hk := List.mem_cons.mp hk
    · apply fresh
    · apply ih fresh k hk
  | expand _ _ _ ihBelow ihRest =>
    intro k hk
    obtain rfl | hk := List.mem_cons.mp hk
    · apply fresh
    · obtain hk | hk := List.mem_append.mp hk
      · apply ihBelow rfl k hk
      · apply ihRest fresh k hk

/-- In the order of their lines, the children of the visit from which the walk started are
`xs`, and those of an expanded identity are its neighbours. An identity is that visit, or it is
expanded in one place only. -/
theorem childrenIn_pairs (h : Unfolding g direction p visited xs visits kin visited')
    (known : p.identity ∈ visited) (u : String) :
  childrenIn u (pairs kin)
    = (if u = p.identity then xs else [])
      ++ (if u ∈ expanded visits then g.neighbours direction u else [])
  := by
  induction h with
  | done => simp [pairs, childrenIn]
  | again _ _ ih =>
    rw [childrenIn_pairs_cons, ih known]
    split <;> rfl
  | @expand p visited x xs inner _ _ _ between _ fresh below rest ihBelow ihRest =>
    have grown : ∀ {y}, y ∈ x :: visited → y ∈ between :=
      fun hy => below.mem_visited.mpr (.inr hy)
    rw [childrenIn_pairs_cons, childrenIn_pairs_append, ihBelow List.mem_cons_self,
      ihRest (grown (List.mem_cons_of_mem x known))]
    simp only [expanded_cons_fresh, expanded_append, List.mem_cons, List.mem_append]
    by_cases parent : u = p.identity
    · have ne : u ≠ x := by
        rintro rfl
        exact fresh (parent ▸ known)
      have old : u ∈ x :: visited := List.mem_cons_of_mem x (parent ▸ known)
      simp [parent.symm, ne, below.not_mem_expanded old, rest.not_mem_expanded (grown old)]
    · by_cases here : u = x
      · subst here
        have self : u ∈ u :: visited := List.mem_cons_self
        simp [parent, below.not_mem_expanded self, rest.not_mem_expanded (grown self)]
      · by_cases inside : u ∈ expanded inner
        · have later := rest.not_mem_expanded (below.mem_visited.mpr (.inl inside))
          simp [parent, here, inside, later]
        · simp [parent, here, inside]

end Unfolding

/-- The walk from some identities below a visit is an unfolding of it, with the kinships that
are read off the depths. -/
theorem unfolding_visitAll (g : Graph) (direction : Direction) (visited xs : List String)
    (depth : Nat) (p : Visit) (earlier : List Visit) (above : p.depth + 1 = depth)
    (near : nearest earlier depth = some p) :
  let t := (visitAll g direction visited xs depth).1
  Unfolding g direction p visited xs t.visits (kinships earlier t.visits) t.visited
  := by
  induction visited, xs, depth using walk_induction g direction generalizing p earlier with
  | done visited depth =>
    rw [visitAll_nil]
    apply Unfolding.done
  | again visited x xs depth known ih =>
    subst above
    have rest := ih p (earlier ++ [⟨x, p.depth + 1, true⟩]) rfl
      (by rwa [nearest_append_of_le (by simp)])
    rw [visitAll_cons_of_mem known]
    simp only [kinships_cons_of_nearest (v := ⟨x, p.depth + 1, true⟩) near]
    apply Unfolding.again known rest
  | expand visited x xs depth fresh ihBelow ihRest =>
    subst above
    have below := ihBelow ⟨x, p.depth + 1, false⟩ (earlier ++ [⟨x, p.depth + 1, false⟩]) rfl
      (nearest_concat rfl)
    rw [visitAll_cons_of_not_mem fresh]
    dsimp only
    rw [kinships_block near]
    apply Unfolding.expand fresh below
    apply ihRest p _ rfl
    rwa [nearest_append_of_le]
    intro v hv
    obtain rfl | hv := List.mem_cons.mp hv
    · apply Nat.le_refl
    · apply Nat.le_of_lt (below.depth_lt v hv)

end SourceAtlas.Tree
