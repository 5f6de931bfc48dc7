import SourceAtlas.Proofs.Tree.Kinship

/-!
# Listings span what can be reached

A listing shows the part of a graph that can be reached from its root (`Spans`). Every identity
of this part is expanded once, and every edge that leaves it is shown once, between its line
and the line of a child, although later occurrences of an identity are not expanded again.
-/

namespace SourceAtlas.Tree

open Ordered (Increasing)

variable {g : Graph} {direction : Direction}

/-! ### Listings -/

/-- A line is cyclic exactly if its identity was visited at first or occurs on a line before
it. -/
theorem cyclic_iff_of_lines {visited : List String} {stack : List Pending}
    {before after : List Visit} {v : Visit}
    (split : ((⟨visited, stack⟩ : Cursor).lines g direction).map Line.visit = before ++ v :: after) :
  v.cyclic = true ↔ v.identity ∈ visited ∨ ∃ w ∈ before, w.identity = v.identity
  := by
  induction visited, stack using Cursor.induction g direction generalizing before with
  | ended visited =>
    simp at split
  | again visited p stack known ih =>
    rw [Cursor.lines_cons_of_mem known, List.map_cons, visit_line] at split
    cases before with
    | nil =>
      obtain ⟨rfl, -⟩ := List.cons.inj split
      simp [known]
    | cons b before =>
      obtain ⟨rfl, rest⟩ := List.cons.inj split
      rw [ih rest]
      simp only [List.mem_cons, exists_eq_or_imp]
      constructor
      · rintro (hv | hv)
        · apply Or.inl hv
        · apply Or.inr (.inr hv)
      · rintro (hv | same | hv)
        · apply Or.inl hv
        · apply Or.inl (same ▸ known)
        · apply Or.inr hv
  | expand visited p stack fresh ih =>
    rw [Cursor.lines_cons_of_not_mem fresh, List.map_cons, visit_line] at split
    cases before with
    | nil =>
      obtain ⟨rfl, -⟩ := List.cons.inj split
      simp [fresh]
    | cons b before =>
      obtain ⟨rfl, rest⟩ := List.cons.inj split
      rw [ih rest]
      simp only [List.mem_cons, exists_eq_or_imp, or_assoc, eq_comm, or_left_comm]

/-- A listing is its root with an unfolding of the neighbours of the root below it. -/
theorem unfolding_listing (g : Graph) (direction : Direction) (x : String) :
  ∃ below visited',
    (listing g direction x).map Line.visit = ⟨x, 0, false⟩ :: below
    ∧ Unfolding g direction ⟨x, 0, false⟩ [x] (g.neighbours direction x) below
        (kinships [⟨x, 0, false⟩] below) visited'
  := by
  have unfolds := unfolding_visitAll g direction [x] (g.neighbours direction x) 1
    ⟨x, 0, false⟩ [⟨x, 0, false⟩] rfl rfl
  refine ⟨_, _, ?_, unfolds⟩
  rw [visits_listing, visit, dif_neg List.not_mem_nil]

/-! ### Edges and pairs -/

/-- The end of an edge to which it is followed. -/
def tip : Direction → Edge → String
  | .dependencies, e => e.target
  | .dependents, e => e.source

theorem leads_iff {x y : String} :
  g.Leads direction x y ↔ ∃ e ∈ g.edges, foot direction e = x ∧ tip direction e = y
  := by
  simp only [Graph.mem_edges]
  cases direction with
  | dependencies => apply Graph.joined_iff
  | dependents => simp only [Graph.Leads, Graph.joined_iff, foot, tip, and_comm]

theorem eq_of_foot_tip (h : g.Coherent) {e e' : Edge} (he : e ∈ g.edges) (he' : e' ∈ g.edges)
    (feet : foot direction e = foot direction e') (tips : tip direction e = tip direction e') :
  e = e'
  := by
  rw [Graph.mem_edges] at he he'
  cases direction with
  | dependencies => apply h.eq_of_ends he he' feet tips
  | dependents => apply h.eq_of_ends he he' tips feet

theorem mem_childrenIn {x y : String} {family : List (String × String)} :
  y ∈ childrenIn x family ↔ (x, y) ∈ family
  := by
  simp [childrenIn]

/-- If the children of every identity come in increasing order, then so do any two pairs with
the same parent. -/
theorem pairwise_of_childrenIn {family : List (String × String)}
    (h : ∀ x, Increasing (childrenIn x family)) :
  family.Pairwise fun a b => a.1 = b.1 → compare a.2 b.2 = .lt
  := by
  induction family with
  | nil => apply List.Pairwise.nil
  | cons a family ih =>
    obtain ⟨x, y⟩ := a
    have first : childrenIn x ((x, y) :: family) = y :: childrenIn x family := by
      simp [childrenIn]
    apply List.pairwise_cons.mpr
    constructor
    · rintro ⟨x', z⟩ hz rfl
      have sorted := h x
      rw [first] at sorted
      apply (List.pairwise_cons.mp sorted).1 z (mem_childrenIn.mpr hz)
    · apply ih
      intro x'
      by_cases same : x = x'
      · have sorted := h x'
        rw [← same, first] at sorted
        apply same ▸ (List.pairwise_cons.mp sorted).2
      · simpa [childrenIn, same] using h x'

/-! ### What a listing shows -/

open Classical in
/-- The edges that leave an identity that can be reached from `x`. -/
noncomputable def edgesLeaving (g : Graph) (direction : Direction) (x : String) : List Edge :=
  g.edges.filter fun e => g.Reachable direction x (foot direction e)

/-- The visits show the part of the graph that can be reached from `x`. -/
structure Spans (g : Graph) (direction : Direction) (x : String) (visits : List Visit) :
    Prop where
  /-- The visits that are not cyclic carry the identities that can be reached. -/
  mem_expanded : ∀ y, y ∈ expanded visits ↔ g.Reachable direction x y
  /-- No identity is on two visits that are not cyclic. -/
  nodup_expanded : (expanded visits).Nodup
  /-- A visit is cyclic exactly if its identity occurs before. -/
  cyclic_iff : ∀ before v after, visits = before ++ v :: after →
    (v.cyclic = true ↔ ∃ w ∈ before, w.identity = v.identity)
  /-- Every visit below the root has a parent, which is not cyclic. -/
  parent : ∀ before v after, visits = before ++ v :: after → 0 < v.depth →
    ∃ p, nearest before v.depth = some p ∧ p.cyclic = false
  /-- Parents with their children are the edges that leave what can be reached. -/
  mem_pairs : ∀ y z, (y, z) ∈ pairs (kinships [] visits)
    ↔ g.Reachable direction x y ∧ g.Leads direction y z
  /-- No parent has the same child twice. -/
  nodup_pairs : (pairs (kinships [] visits)).Nodup
  /-- The children of one parent come in increasing order. -/
  children_increasing : (pairs (kinships [] visits)).Pairwise fun a b =>
    a.1 = b.1 → compare a.2 b.2 = .lt
  /-- There is one visit for the root and one for each edge that leaves what can be reached. -/
  length_eq : visits.length = 1 + (edgesLeaving g direction x).length

section Root

variable {x : String} {below : List Visit} {kin : List (Visit × Visit)} {visited' : List String}
  (h : Unfolding g direction ⟨x, 0, false⟩ [x] (g.neighbours direction x) below kin visited')
include h

theorem Unfolding.mem_expanded_iff (y : String) :
  y ∈ expanded (⟨x, 0, false⟩ :: below) ↔ g.Reachable direction x y
  := by
  constructor
  · intro hy
    rw [expanded_cons_fresh] at hy
    obtain rfl | hy := List.mem_cons.mp hy
    · apply Relation.ReflTransGen.refl
    · obtain ⟨v, hv, rfl⟩ := List.mem_map.mp hy
      apply h.reachable _ v (List.mem_of_mem_filter hv)
      intro z hz
      apply Relation.ReflTransGen.single (Graph.mem_neighbours.mp hz)
  · intro path
    have visited : ∀ {z}, z ∈ visited' → z ∈ expanded (⟨x, 0, false⟩ :: below) := by
      intro z hz
      rw [h.mem_visited, List.mem_singleton] at hz
      simpa [or_comm] using hz
    induction path with
    | refl => apply List.mem_cons_self
    | tail _ leads ih =>
      apply visited
      obtain rfl | hy := List.mem_cons.mp ih
      · apply h.subset_visited _ (Graph.mem_neighbours.mpr leads)
      · apply h.closed hy leads

theorem Unfolding.nodup_expanded :
  (expanded (⟨x, 0, false⟩ :: below)).Nodup
  := by
  have distinct := h.nodup_visited (List.nodup_singleton x)
  rw [h.visited_eq, ← List.nodup_reverse] at distinct
  simpa using distinct

theorem Unfolding.childrenIn_eq (y : String) :
  childrenIn y (pairs kin)
    = if y ∈ expanded (⟨x, 0, false⟩ :: below) then g.neighbours direction y else []
  := by
  rw [h.childrenIn_pairs List.mem_cons_self, expanded_cons_fresh]
  have root := h.not_mem_expanded (List.mem_singleton_self x)
  by_cases here : y = x
  · subst here
    simp [root]
  · simp [here]

theorem Unfolding.mem_pairs_iff (y z : String) :
  (y, z) ∈ pairs kin ↔ g.Reachable direction x y ∧ g.Leads direction y z
  := by
  rw [← mem_childrenIn, h.childrenIn_eq, ← h.mem_expanded_iff]
  by_cases known : y ∈ expanded (⟨x, 0, false⟩ :: below)
  · rw [if_pos known, Graph.mem_neighbours, and_iff_right known]
  · rw [if_neg known]
    simp only [List.not_mem_nil, known, false_and]

theorem Unfolding.pairs_increasing :
  (pairs kin).Pairwise fun a b => a.1 = b.1 → compare a.2 b.2 = .lt
  := by
  apply pairwise_of_childrenIn
  intro y
  rw [h.childrenIn_eq]
  split
  · apply Graph.increasing_neighbours
  · apply List.Pairwise.nil

theorem Unfolding.nodup_pairs :
  (pairs kin).Nodup
  := by
  apply List.Pairwise.imp _ h.pairs_increasing
  rintro a _ before rfl
  simp [Std.compare_self] at before

/-- Parents with their children and the edges that leave what can be reached correspond to
each other. -/
theorem Unfolding.pairs_perm (coherent : g.Coherent) :
  (pairs kin).Perm
    ((edgesLeaving g direction x).map fun e => (foot direction e, tip direction e))
  := by
  have single : ((edgesLeaving g direction x).map fun e =>
      (foot direction e, tip direction e)).Nodup := by
    apply List.Nodup.map_on
    · intro e he e' he' ends
      obtain ⟨feet, tips⟩ := Prod.mk.inj ends
      apply eq_of_foot_tip coherent (List.mem_of_mem_filter he) (List.mem_of_mem_filter he') feet
        tips
    · apply List.Nodup.filter
      apply (Ordered.increasing_ofList g.links).nodup
  apply (List.perm_ext_iff_of_nodup h.nodup_pairs single).mpr
  rintro ⟨y, z⟩
  rw [h.mem_pairs_iff, leads_iff]
  simp only [edgesLeaving, List.mem_map, List.mem_filter, decide_eq_true_eq, Prod.mk.injEq]
  constructor
  · rintro ⟨path, e, he, rfl, rfl⟩
    exact ⟨e, ⟨he, path⟩, rfl, rfl⟩
  · rintro ⟨e, ⟨he, path⟩, rfl, rfl⟩
    exact ⟨path, e, he, rfl, rfl⟩

theorem Unfolding.length_eq (coherent : g.Coherent) :
  below.length = (edgesLeaving g direction x).length
  := by
  have pairing := (h.pairs_perm coherent).length_eq
  rw [pairs, List.length_map, List.length_map] at pairing
  rw [← pairing, ← h.map_snd, List.length_map]

end Root

/-- The listing of a built graph shows the part that can be reached from its root: no
identity and no edge of this part is lost or shown twice. -/
theorem listing_spans_reachable (calls : List Graph.Call) (direction : Direction)
    (x : String) :
  Spans (Graph.build calls) direction x
    ((listing (Graph.build calls) direction x).map Line.visit)
  := by
  obtain ⟨below, visited', visits, h⟩ := unfolding_listing (Graph.build calls) direction x
  have kin : kinships [] (⟨x, 0, false⟩ :: below) = kinships [⟨x, 0, false⟩] below := rfl
  constructor
  · rw [visits]
    apply h.mem_expanded_iff
  · rw [visits]
    apply h.nodup_expanded
  · intro before v after split
    simpa using cyclic_iff_of_lines split
  · intro before v after split deep
    rw [visits] at split
    cases before with
    | nil =>
      obtain ⟨rfl, -⟩ := List.cons.inj split
      cases deep
    | cons r before =>
      obtain ⟨rfl, rest⟩ := List.cons.inj split
      obtain ⟨p, near, mem⟩ := exists_nearest h.map_snd rest
      exact ⟨p, near, h.parent_fresh rfl _ mem⟩
  · rw [visits, kin]
    apply h.mem_pairs_iff
  · rw [visits, kin]
    apply h.nodup_pairs
  · rw [visits, kin]
    apply h.pairs_increasing
  · rw [visits, List.length_cons, h.length_eq (Graph.coherent_build calls), Nat.add_comm]

end SourceAtlas.Tree
