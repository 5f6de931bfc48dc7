import SourceAtlas.Proofs.Graph
import SourceAtlas.Proofs.Lists

/-!
# Observers of a graph agree

Dependencies, dependents, edges, the adjacency and the counts are computed from the nodes and links
of a graph in ways of their own. On coherent graphs they agree. Since no two links have the same
ends, no neighbour is found twice: the neighbours of an identity are as many as the links at it,
and by grouping the links by one of their ends these numbers add up to the number of all links.
-/

namespace SourceAtlas.Graph

open Ordered (Increasing)

variable {g : Graph}

/-! ### Neighbours -/

/-- Links that are determined by their two ends have different far ends where they have the same
near end. -/
theorem nodup_far_ends (near far : Edge → String) {links : List Edge} (distinct : links.Nodup)
    (single : ∀ e ∈ links, ∀ e' ∈ links, near e = near e' → far e = far e' → e = e') (x : String) :
  ((links.filter (near · == x)).map far).Nodup
  := by
  apply List.Nodup.map_on
  · intro e he e' he' same
    obtain ⟨he, here⟩ := List.mem_filter.mp he
    obtain ⟨he', here'⟩ := List.mem_filter.mp he'
    rw [beq_iff_eq] at here here'
    apply single e he e' he' (here.trans here'.symm) same
  · apply distinct.filter

theorem Coherent.dependencies_eq_sort (h : g.Coherent) (x : String) :
  g.dependencies x = Ordered.sort ((g.links.filter (·.source == x)).map Edge.target)
  := by
  apply Ordered.ofList_eq_sort (nodup_far_ends Edge.source Edge.target h.links_nodup _ x)
  intro e he e' he' sources targets
  apply h.eq_of_ends he he' sources targets

theorem Coherent.dependents_eq_sort (h : g.Coherent) (x : String) :
  g.dependents x = Ordered.sort ((g.links.filter (·.target == x)).map Edge.source)
  := by
  apply Ordered.ofList_eq_sort (nodup_far_ends Edge.target Edge.source h.links_nodup _ x)
  intro e he e' he' targets sources
  apply h.eq_of_ends he he' sources targets

/-! ### Adjacency -/

theorem mem_targets {x y : String} :
  y ∈ (g.edges.filter (·.source == x)).map Edge.target ↔ g.Joined x y
  := by
  simp [joined_iff, and_assoc]

/-- Edges of one source are ordered by their targets alone, since no two of them have the same
target. -/
theorem Coherent.increasing_targets (h : g.Coherent) (x : String) :
  Increasing ((g.edges.filter (·.source == x)).map Edge.target)
  := by
  have sorted : Increasing g.edges := Ordered.increasing_ofList g.links
  apply List.pairwise_map.mpr
  apply (sorted.filter (·.source == x)).imp_of_mem
  intro e e' he he' before
  obtain ⟨he, source⟩ := List.mem_filter.mp he
  obtain ⟨he', source'⟩ := List.mem_filter.mp he'
  rw [beq_iff_eq] at source source'
  rw [mem_edges] at he he'
  obtain sources | ⟨sources, targets | ⟨targets, kinds⟩⟩ := Edge.compare_eq_lt.mp before
  · rw [source, source', Std.compare_self] at sources
    contradiction
  · apply targets
  · obtain rfl := h.eq_of_ends he he' sources targets
    rw [Std.compare_self] at kinds
    contradiction

/-- The adjacency lists every node with its dependencies. -/
theorem Coherent.adjacency_eq (h : g.Coherent) :
  g.adjacency = g.identities.map fun x => (x, g.dependencies x)
  := by
  rw [adjacency]
  apply List.map_congr_left
  intro x _
  have same : (g.edges.filter (·.source == x)).map Edge.target = g.dependencies x := by
    apply Increasing.ext (h.increasing_targets x) (Ordered.increasing_ofList _)
    intro y
    rw [mem_targets, ← mem_dependencies]
    rfl
  rw [same]

/-! ### Counts -/

theorem Coherent.identities_perm (h : g.Coherent) :
  g.identities.Perm g.nodes
  := Ordered.ofList_perm h.nodes_nodup

/-- Counted at their sources, all links are counted once. -/
theorem Coherent.sum_dependencies (h : g.Coherent) :
  (g.identities.map fun x => (g.dependencies x).length).sum = g.links.length
  := by
  simp only [h.dependencies_eq_sort, Ordered.length_sort, List.length_map]
  apply sum_length_filter Edge.source (Ordered.increasing_ofList g.nodes).nodup
  intro e he
  apply mem_identities.mpr (h.ends_mem e he).1

/-- Counted at their targets, all links are counted once. -/
theorem Coherent.sum_dependents (h : g.Coherent) :
  (g.identities.map fun x => (g.dependents x).length).sum = g.links.length
  := by
  simp only [h.dependents_eq_sort, Ordered.length_sort, List.length_map]
  apply sum_length_filter Edge.target (Ordered.increasing_ofList g.nodes).nodup
  intro e he
  apply mem_identities.mpr (h.ends_mem e he).2

theorem isIsolated_iff {x : String} :
  g.isIsolated x = true ↔ g.dependencies x = [] ∧ g.dependents x = []
  := by
  simp only [isIsolated, List.eq_nil_iff_forall_not_mem, mem_dependencies, mem_dependents,
    joined_iff, Bool.not_eq_true', List.any_eq_false, Bool.or_eq_true, beq_iff_eq, not_or]
  constructor
  · intro alone
    constructor
    · rintro y ⟨e, he, source, -⟩
      apply (alone e he).1 source
    · rintro y ⟨e, he, -, target⟩
      apply (alone e he).2 target
  · rintro ⟨nowhere, nobody⟩ e he
    constructor
    · intro source
      apply nowhere e.target ⟨e, he, source, rfl⟩
    · intro target
      apply nobody e.source ⟨e, he, rfl, target⟩

theorem Coherent.isolated_eq (h : g.Coherent) :
  g.stats.isolated
    = (g.identities.filter fun x => g.dependencies x = [] ∧ g.dependents x = []).length
  := by
  have same : g.identities.filter g.isIsolated
      = g.identities.filter fun x => g.dependencies x = [] ∧ g.dependents x = [] := by
    apply List.filter_congr
    intro x _
    rw [Bool.eq_iff_iff, isIsolated_iff, decide_eq_true_eq]
  rw [← same]
  apply (h.identities_perm.filter g.isIsolated).length_eq.symm

/-- On a graph that is built by calls all observers agree, although they are computed apart. One
identity depends on another exactly if the other has it among its dependents, if some edge leads to
the other, and if the adjacency lists the other under it. All listings are strictly increasing, and
by sorting alone, since nothing occurs twice. The adjacency lists the dependencies of every node,
and the counts are those of what is listed: the edges can be counted at their sources or at their
targets, and the isolated identities are those without neighbours in either direction. -/
theorem observers_agree (calls : List Call) :
  let g := build calls
  (∀ a b, (b ∈ g.dependencies a ↔ a ∈ g.dependents b)
      ∧ (b ∈ g.dependencies a ↔ ∃ kind, ⟨a, b, kind⟩ ∈ g.edges)
      ∧ (b ∈ g.dependencies a ↔ ∃ targets, (a, targets) ∈ g.adjacency ∧ b ∈ targets))
    ∧ Increasing g.identities
    ∧ (∀ x, Increasing (g.dependencies x) ∧ Increasing (g.dependents x))
    ∧ Increasing g.edges
    ∧ g.identities = Ordered.sort g.nodes
    ∧ (∀ x, g.dependencies x = Ordered.sort ((g.links.filter (·.source == x)).map Edge.target)
        ∧ g.dependents x = Ordered.sort ((g.links.filter (·.target == x)).map Edge.source))
    ∧ g.edges = Ordered.sort g.links
    ∧ g.adjacency.map Prod.fst = g.identities
    ∧ (∀ entry ∈ g.adjacency, entry.2 = g.dependencies entry.1)
    ∧ g.stats.nodes = g.identities.length
    ∧ g.stats.edges = g.edges.length
    ∧ g.stats.edges = (g.adjacency.map fun entry => entry.2.length).sum
    ∧ g.stats.edges = (g.identities.map fun x => (g.dependents x).length).sum
    ∧ g.stats.isolated
      = (g.identities.filter fun x => g.dependencies x = [] ∧ g.dependents x = []).length
  := by
  intro g
  have coherent : g.Coherent := coherent_build calls
  have adjacency := coherent.adjacency_eq
  and_intros
  · intro a b
    and_intros
    · rw [mem_dependencies, mem_dependents]
    · simp only [mem_dependencies, mem_edges, Joined]
    · rw [adjacency]
      constructor
      · intro hb
        obtain ⟨e, he, source, -⟩ := joined_iff.mp (mem_dependencies.mp hb)
        have known : a ∈ g.identities := mem_identities.mpr (source ▸ (coherent.ends_mem e he).1)
        exact ⟨_, List.mem_map_of_mem known, hb⟩
      · rintro ⟨targets, mem, hb⟩
        obtain ⟨x, -, same⟩ := List.mem_map.mp mem
        obtain ⟨rfl, rfl⟩ := Prod.mk.inj same
        apply hb
  · apply Ordered.increasing_ofList
  · intro x
    exact ⟨Ordered.increasing_ofList _, Ordered.increasing_ofList _⟩
  · apply Ordered.increasing_ofList
  · apply Ordered.ofList_eq_sort coherent.nodes_nodup
  · intro x
    exact ⟨coherent.dependencies_eq_sort x, coherent.dependents_eq_sort x⟩
  · apply Ordered.ofList_eq_sort coherent.links_nodup
  · rw [adjacency, List.map_map]
    apply List.map_id
  · intro entry mem
    rw [adjacency] at mem
    obtain ⟨x, -, rfl⟩ := List.mem_map.mp mem
    rfl
  · apply coherent.identities_perm.length_eq.symm
  · apply (Ordered.ofList_perm coherent.links_nodup).length_eq.symm
  · rw [adjacency, List.map_map]
    apply coherent.sum_dependencies.symm
  · apply coherent.sum_dependents.symm
  · apply coherent.isolated_eq

end SourceAtlas.Graph
