import SourceAtlas.Proofs.Graph
import SourceAtlas.View

/-!
# Views of what a seed reaches

The search behind `Graph.reachableView` registers an identity when it is put on the stack and
draws the edges that leave it when it is taken off again. In between, every registered identity
is either expanded or waits on the stack, in one place (`Progress`). When nothing waits any
more, the expanded identities are those that the seed reaches, and each has been expanded once.
-/

namespace SourceAtlas.Reach

open Ordered (Increasing)

variable {g : Graph} {seed : String}

theorem mem_edgesFrom {x : String} {e : Edge} :
  e ∈ edgesFrom g x ↔ e.kind = .referencing ∧ e.source = x ∧ g.Joined x e.target
  := by
  simp only [edgesFrom, List.mem_map, Graph.mem_dependencies]
  constructor
  · rintro ⟨y, joined, rfl⟩
    exact ⟨rfl, rfl, joined⟩
  · rintro ⟨kind, rfl, joined⟩
    exact ⟨e.target, joined, kind ▸ rfl⟩

theorem nodup_edgesFrom (g : Graph) (x : String) :
  (edgesFrom g x).Nodup
  := by
  apply (Graph.increasing_neighbours g .dependencies x).nodup.map
  intro y z same
  exact (Edge.mk.inj same).2.1

/-! ### Steps of a search -/

/-- Some steps lead from one state of a search to another. -/
def Steps (g : Graph) : Search → Search → Prop :=
  Relation.ReflTransGen fun s s' => s.step? g = some s'

theorem step?_eq_none {s : Search} :
  s.step? g = none ↔ s.stack = []
  := by
  rw [Search.step?]
  split <;> simp_all

theorem step?_eq_some {s s' : Search} (h : s.step? g = some s') :
  ∃ x stack, s.stack = x :: stack ∧ s' = s.expand g x stack
  := by
  rw [Search.step?] at h
  split at h
  · contradiction
  · rename_i x stack top
    exact ⟨x, stack, top, (Option.some.inj h).symm⟩

/-- A search comes to an end. -/
theorem steps_run (g : Graph) (s : Search) :
  Steps g s (s.run g) ∧ (s.run g).step? g = none
  := by
  induction s using Search.run.induct g with
  | case1 s ended =>
    rw [Search.run]
    split
    · exact ⟨.refl, ended⟩
    · simp_all
  | case2 s s' step ih =>
    rw [Search.run]
    split
    · simp_all
    · rename_i next
      obtain rfl : s' = _ := Option.some.inj (step.symm.trans next)
      exact ⟨.head step ih.1, ih.2⟩

/-- The state of a search from the seed that has expanded the identities `done`, in this
order. -/
structure Progress (g : Graph) (seed : String) (done : List String) (s : Search) : Prop where
  /-- What is visited is expanded or waits on the stack, in one place. -/
  placed : s.visited.Perm (done ++ s.stack)
  distinct : s.visited.Nodup
  /-- All that an expanded identity depends on is visited. -/
  closed : ∀ x ∈ done, ∀ y, g.Joined x y → y ∈ s.visited
  reachable : ∀ x ∈ s.visited, g.Reachable .dependencies seed x
  edges_eq : s.view.edges = done.flatMap (edgesFrom g)
  nodes_eq : ∃ others : List String, s.view.nodes
    = { ViewNode.plain seed with isSeed := true } :: others.map ViewNode.plain

namespace Progress

variable {s s' : Search} {done : List String}

theorem start (g : Graph) (seed : String) :
  Progress g seed [] (Search.start seed)
  where
  placed := List.Perm.refl _
  distinct := List.nodup_singleton seed
  closed := by simp
  reachable := by
    intro x hx
    obtain rfl := List.mem_singleton.mp hx
    apply Relation.ReflTransGen.refl
  edges_eq := rfl
  nodes_eq := ⟨[], rfl⟩

/-- Expanding the top of the stack moves it to the expanded identities. -/
theorem expand (h : Progress g seed done s) {x : String} {stack : List String}
    (top : s.stack = x :: stack) :
  Progress g seed (done ++ [x]) (s.expand g x stack)
  := by
  have shown : x ∈ s.visited := by
    apply h.placed.mem_iff.mpr
    simp [top]
  constructor
  · rw [Search.visited_expand]
    have old : s.visited.Perm (done ++ [x] ++ stack) := by
      simpa [top] using h.placed
    apply (old.append_right _).trans
    rw [List.append_assoc]
    apply List.Perm.append_left _ List.perm_append_comm
  · rw [Search.visited_expand]
    apply List.nodup_append.mpr
    and_intros
    · apply h.distinct
    · apply nodup_fresh
    · rintro y old _ new rfl
      exact (mem_fresh.mp new).2 old
  · intro z hz y joined
    rw [Search.visited_expand]
    obtain earlier | rfl := by simpa using hz
    · apply List.mem_append_left _ (h.closed z earlier y joined)
    · by_cases known : y ∈ s.visited
      · apply List.mem_append_left _ known
      · apply List.mem_append_right
        exact mem_fresh.mpr ⟨Graph.mem_dependencies.mpr joined, known⟩
  · intro y hy
    rw [Search.visited_expand] at hy
    obtain old | new := List.mem_append.mp hy
    · apply h.reachable y old
    · have joined := Graph.mem_dependencies.mp (mem_fresh.mp new).1
      apply (h.reachable x shown).tail joined
  · rw [List.flatMap_append, List.flatMap_singleton, ← h.edges_eq]
    rfl
  · obtain ⟨others, nodes⟩ := h.nodes_eq
    use others ++ fresh s.visited (g.dependencies x)
    rw [Search.expand, nodes, List.map_append]
    rfl

theorem steps (h : Progress g seed done s) (run : Steps g s s') :
  ∃ done', Progress g seed done' s'
  := by
  induction run with
  | refl => exact ⟨done, h⟩
  | tail _ step ih =>
    obtain ⟨done', h'⟩ := ih
    obtain ⟨x, stack, top, rfl⟩ := step?_eq_some step
    exact ⟨done' ++ [x], h'.expand top⟩

theorem seed_mem (h : Progress g seed done s) :
  seed ∈ s.visited
  := by
  obtain ⟨others, nodes⟩ := h.nodes_eq
  rw [Search.visited, nodes]
  apply List.mem_cons_self

section Ended

variable (h : Progress g seed done s) (ended : s.stack = [])
include h ended

theorem visited_perm :
  s.visited.Perm done
  := by
  simpa [ended] using h.placed

/-- When nothing waits any more, everything that the seed reaches is expanded. -/
theorem mem_done_iff {x : String} :
  x ∈ done ↔ g.Reachable .dependencies seed x
  := by
  rw [← (h.visited_perm ended).mem_iff]
  constructor
  · apply h.reachable
  · intro reachable
    induction reachable with
    | refl => apply h.seed_mem
    | tail _ joined ih => apply h.closed _ ((h.visited_perm ended).mem_iff.mp ih) _ joined

theorem mem_edges_iff {e : Edge} :
  e ∈ s.view.edges ↔ e.kind = .referencing ∧ g.Joined e.source e.target
    ∧ g.Reachable .dependencies seed e.source
  := by
  simp only [h.edges_eq, List.mem_flatMap, mem_edgesFrom, h.mem_done_iff ended]
  constructor
  · rintro ⟨_, reachable, kind, rfl, joined⟩
    exact ⟨kind, joined, reachable⟩
  · rintro ⟨kind, joined, reachable⟩
    exact ⟨e.source, reachable, kind, rfl, joined⟩

/-- No edge is drawn twice, because no identity is expanded twice. -/
theorem nodup_edges :
  s.view.edges.Nodup
  := by
  rw [h.edges_eq]
  apply List.nodup_flatMap.mpr
  constructor
  · intro x _
    apply nodup_edgesFrom
  · have distinct : done.Nodup := (h.visited_perm ended).nodup_iff.mp h.distinct
    apply distinct.imp
    intro x y ne e hx hy
    exact ne ((mem_edgesFrom.mp hx).2.1.symm.trans (mem_edgesFrom.mp hy).2.1)

end Ended

end Progress

/-! ### The view of a finished search -/

theorem exists_progress (g : Graph) (seed : String) :
  ∃ done, Progress g seed done ((Search.start seed).run g)
    ∧ ((Search.start seed).run g).stack = []
  := by
  obtain ⟨run, none⟩ := steps_run g (Search.start seed)
  obtain ⟨done, final⟩ := (Progress.start g seed).steps run
  exact ⟨done, final, step?_eq_none.mp none⟩

theorem mem_ids_reachableView {x : String} :
  x ∈ (g.reachableView seed).nodes.map ViewNode.id ↔ g.Reachable .dependencies seed x
  := by
  obtain ⟨done, final, ended⟩ := exists_progress g seed
  apply (final.visited_perm ended).mem_iff.trans (final.mem_done_iff ended)

theorem mem_edges_reachableView {e : Edge} :
  e ∈ (g.reachableView seed).edges ↔ e.kind = .referencing ∧ g.Joined e.source e.target
    ∧ g.Reachable .dependencies seed e.source
  := by
  obtain ⟨done, final, ended⟩ := exists_progress g seed
  apply Ordered.mem_sort.trans (final.mem_edges_iff ended)

/-- The search from a seed comes to an end, and its view shows what the seed reaches. Every
identity that can be reached is a node, once; the first node is the seed, and no other one is
flagged. Every edge that leaves such an identity is drawn, once and in order, as a reference
between two nodes. -/
theorem reachableView_spans (calls : List Graph.Call) (seed : String) :
  let g := Graph.build calls
  let view := g.reachableView seed
  let ids := view.nodes.map ViewNode.id
  (∃ s, Steps g (Search.start seed) s ∧ s.step? g = none
      ∧ view = ⟨s.view.nodes, Ordered.sort s.view.edges⟩)
    ∧ (∀ x, x ∈ ids ↔ g.Reachable .dependencies seed x)
    ∧ ids.Nodup
    ∧ (∃ first others, view.nodes = first :: others ∧ first.id = seed ∧ first.isSeed = true
        ∧ ∀ n ∈ others, n.isSeed = false)
    ∧ Increasing view.edges
    ∧ view.edges.Nodup
    ∧ (∀ e, e ∈ view.edges ↔ e.kind = .referencing ∧ g.Joined e.source e.target
        ∧ g.Reachable .dependencies seed e.source)
    ∧ ∀ e ∈ view.edges, e.source ∈ ids ∧ e.target ∈ ids
  := by
  intro g view ids
  obtain ⟨run, none⟩ := steps_run g (Search.start seed)
  obtain ⟨done, final⟩ := (Progress.start g seed).steps run
  have ended := step?_eq_none.mp none
  have sorted : Increasing view.edges := Ordered.increasing_sort (final.nodup_edges ended)
  have nodes (x : String) : x ∈ ids ↔ g.Reachable .dependencies seed x :=
    (final.visited_perm ended).mem_iff.trans (final.mem_done_iff ended)
  have edges (e : Edge) : e ∈ view.edges ↔ e.kind = .referencing ∧ g.Joined e.source e.target
      ∧ g.Reachable .dependencies seed e.source :=
    Ordered.mem_sort.trans (final.mem_edges_iff ended)
  and_intros
  · exact ⟨_, run, none, rfl⟩
  · apply nodes
  · apply final.distinct
  · obtain ⟨others, split⟩ := final.nodes_eq
    refine ⟨_, _, split, rfl, rfl, ?_⟩
    intro n hn
    obtain ⟨x, -, rfl⟩ := List.mem_map.mp hn
    rfl
  · apply sorted
  · apply sorted.nodup
  · apply edges
  · intro e he
    obtain ⟨-, joined, reachable⟩ := (edges e).mp he
    constructor
    · apply (nodes _).mpr reachable
    · apply (nodes _).mpr (reachable.tail joined)

end SourceAtlas.Reach
