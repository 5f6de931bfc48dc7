import Mathlib.Data.List.Nodup
import Mathlib.Logic.Relation
import SourceAtlas.Graph
import SourceAtlas.Proofs.Ordered

/-!
# Graphs that are built by calls

A graph is built from the empty one by calls that add nodes and edges. Whatever the calls
are, the graph stays coherent (`coherent_build`): its nodes are distinct, and its edges join
distinct nodes, each pair at most once. The observers read the nodes and edges off without
adding or losing any.
-/

namespace SourceAtlas.Graph

open Ordered (Increasing)

variable {g : Graph}

/-! ### Calls -/

/-- A call that changes a graph. -/
inductive Call where
  | node (identity : String)
  | edge (e : Edge)
  deriving DecidableEq, Repr

/-- The graph after a call. -/
def perform (g : Graph) : Call → Graph
  | .node x => (g.addNode x).2
  | .edge e => (g.addEdge e).2

/-- The graph that a sequence of calls builds. -/
def build (calls : List Call) : Graph :=
  calls.foldl perform empty

/-- Some edge leads from `x` to `y`. -/
def Joined (g : Graph) (x y : String) : Prop :=
  ∃ kind, ⟨x, y, kind⟩ ∈ g.links

theorem joined_iff {x y : String} :
  g.Joined x y ↔ ∃ e ∈ g.links, e.source = x ∧ e.target = y
  := by
  constructor
  · rintro ⟨kind, he⟩
    exact ⟨_, he, rfl, rfl⟩
  · rintro ⟨⟨_, _, kind⟩, he, rfl, rfl⟩
    exact ⟨kind, he⟩

theorem joins_iff {x y : String} :
  g.joins x y = true ↔ g.Joined x y
  := by
  simp [joins, joined_iff]

theorem admits_iff {e : Edge} :
  g.admits e = true ↔ e.source ≠ e.target ∧ e.source ∈ g.nodes ∧ e.target ∈ g.nodes
    ∧ ¬ g.Joined e.source e.target
  := by
  simp [admits, contains, ← joins_iff, and_assoc]

theorem addNode_of_mem {x : String} (h : x ∈ g.nodes) :
  (g.addNode x).2 = g
  := by
  rw [addNode]
  split
  · rfl
  · rename_i missing
    exact absurd h (List.idxOf?_eq_none_iff.mp missing)

theorem addNode_of_not_mem {x : String} (h : x ∉ g.nodes) :
  (g.addNode x).2 = { g with nodes := g.nodes ++ [x] }
  := by
  rw [addNode, List.idxOf?_eq_none_iff.mpr h]

theorem addEdge_of_admits {e : Edge} (h : g.admits e = true) :
  (g.addEdge e).2 = { g with links := g.links ++ [e] }
  := by
  rw [addEdge, if_pos h]

theorem addEdge_of_not_admits {e : Edge} (h : ¬ g.admits e = true) :
  (g.addEdge e).2 = g
  := by
  rw [addEdge, if_neg h]

@[simp]
theorem mem_nodes_addNode {x y : String} :
  y ∈ (g.addNode x).2.nodes ↔ y ∈ g.nodes ∨ y = x
  := by
  by_cases known : x ∈ g.nodes
  · rw [addNode_of_mem known, iff_self_or]
    rintro rfl
    apply known
  · rw [addNode_of_not_mem known]
    simp

@[simp]
theorem links_addNode (x : String) :
  (g.addNode x).2.links = g.links
  := by
  by_cases known : x ∈ g.nodes
  · rw [addNode_of_mem known]
  · rw [addNode_of_not_mem known]

@[simp]
theorem nodes_addEdge (e : Edge) :
  (g.addEdge e).2.nodes = g.nodes
  := by
  by_cases admitted : g.admits e = true
  · rw [addEdge_of_admits admitted]
  · rw [addEdge_of_not_admits admitted]

/-- An edge between two different nodes is only refused where there is one already. -/
theorem joined_addEdge {e : Edge} {x y : String} :
  (g.addEdge e).2.Joined x y
    ↔ g.Joined x y ∨ (e.source = x ∧ e.target = y ∧ x ≠ y ∧ x ∈ g.nodes ∧ y ∈ g.nodes)
  := by
  by_cases admitted : g.admits e = true
  · obtain ⟨ne, source, target, -⟩ := admits_iff.mp admitted
    rw [addEdge_of_admits admitted]
    constructor
    · rintro ⟨kind, he⟩
      obtain old | rfl := by simpa using he
      · exact .inl ⟨kind, old⟩
      · exact .inr ⟨rfl, rfl, ne, source, target⟩
    · rintro (⟨kind, old⟩ | ⟨rfl, rfl, -⟩)
      · exact ⟨kind, List.mem_append_left _ old⟩
      · exact ⟨e.kind, List.mem_append_right _ List.mem_cons_self⟩
  · rw [addEdge_of_not_admits admitted, iff_self_or]
    rintro ⟨rfl, rfl, ne, source, target⟩
    by_contra single
    exact admitted (admits_iff.mpr ⟨ne, source, target, single⟩)

theorem mem_links_addEdge {e e' : Edge} (h : e' ∈ (g.addEdge e).2.links) :
  e' ∈ g.links ∨ e' = e
  := by
  by_cases admitted : g.admits e = true
  · rw [addEdge_of_admits admitted] at h
    simpa using h
  · rw [addEdge_of_not_admits admitted] at h
    apply Or.inl h

/-! ### Coherence -/

/-- The nodes are distinct, and every edge joins two of them that no other edge joins in the
same direction. -/
structure Coherent (g : Graph) : Prop where
  nodes_nodup : g.nodes.Nodup
  ends_mem : ∀ e ∈ g.links, e.source ∈ g.nodes ∧ e.target ∈ g.nodes
  ends_ne : ∀ e ∈ g.links, e.source ≠ e.target
  ends_nodup : (g.links.map fun e => (e.source, e.target)).Nodup

theorem coherent_empty :
  empty.Coherent
  where
  nodes_nodup := List.nodup_nil
  ends_mem := by simp [empty]
  ends_ne := by simp [empty]
  ends_nodup := List.nodup_nil

theorem Coherent.addNode (h : g.Coherent) (x : String) :
  (g.addNode x).2.Coherent
  := by
  by_cases known : x ∈ g.nodes
  · rw [addNode_of_mem known]
    apply h
  · rw [addNode_of_not_mem known]
    constructor
    · apply List.nodup_append.mpr
      and_intros
      · apply h.nodes_nodup
      · apply List.nodup_singleton
      · rintro y hy _ hx rfl
        obtain rfl := List.mem_singleton.mp hx
        exact known hy
    · intro e he
      obtain ⟨source, target⟩ := h.ends_mem e he
      exact ⟨List.mem_append_left _ source, List.mem_append_left _ target⟩
    · apply h.ends_ne
    · apply h.ends_nodup

theorem Coherent.addEdge (h : g.Coherent) (e : Edge) :
  (g.addEdge e).2.Coherent
  := by
  by_cases admitted : g.admits e = true
  · obtain ⟨ne, source, target, single⟩ := admits_iff.mp admitted
    rw [addEdge_of_admits admitted]
    constructor
    · apply h.nodes_nodup
    · intro e' he'
      obtain old | rfl := by simpa using he'
      · apply h.ends_mem e' old
      · exact ⟨source, target⟩
    · intro e' he'
      obtain old | rfl := by simpa using he'
      · apply h.ends_ne e' old
      · apply ne
    · rw [List.map_append]
      apply List.nodup_append.mpr
      and_intros
      · apply h.ends_nodup
      · apply List.nodup_singleton
      · rintro _ old _ new rfl
        obtain ⟨⟨s, t, kind⟩, he', ends⟩ := List.mem_map.mp old
        obtain ⟨rfl, rfl⟩ : s = e.source ∧ t = e.target := by
          simpa [← ends] using new
        exact single ⟨kind, he'⟩
  · rw [addEdge_of_not_admits admitted]
    apply h

theorem Coherent.perform (h : g.Coherent) (call : Call) :
  (g.perform call).Coherent
  := by
  cases call with
  | node x => apply h.addNode
  | edge e => apply h.addEdge

theorem Coherent.foldl_perform (h : g.Coherent) (calls : List Call) :
  (calls.foldl Graph.perform g).Coherent
  := by
  induction calls generalizing g with
  | nil => apply h
  | cons call calls ih => apply ih (h.perform call)

theorem coherent_build (calls : List Call) :
  (build calls).Coherent
  := coherent_empty.foldl_perform calls

/-- Two edges with the same ends are the same edge. -/
theorem Coherent.eq_of_ends (h : g.Coherent) {e e' : Edge} (he : e ∈ g.links)
    (he' : e' ∈ g.links) (source : e.source = e'.source) (target : e.target = e'.target) :
  e = e'
  := List.inj_on_of_nodup_map h.ends_nodup he he' (Prod.ext source target)

theorem Coherent.links_nodup (h : g.Coherent) :
  g.links.Nodup
  := h.ends_nodup.of_map _

/-! ### Observers -/

@[simp]
theorem mem_identities {x : String} :
  x ∈ g.identities ↔ x ∈ g.nodes
  := Ordered.mem_ofList

@[simp]
theorem mem_edges {e : Edge} :
  e ∈ g.edges ↔ e ∈ g.links
  := Ordered.mem_ofList

@[simp]
theorem mem_dependencies {x y : String} :
  y ∈ g.dependencies x ↔ g.Joined x y
  := by
  simp [dependencies, joined_iff, and_assoc]

@[simp]
theorem mem_dependents {x y : String} :
  y ∈ g.dependents x ↔ g.Joined y x
  := by
  simp [dependents, joined_iff, and_assoc, and_comm]

/-- Some edge leads from `x` to `y` when edges are followed in the direction. -/
def Leads (g : Graph) : Direction → String → String → Prop
  | .dependencies, x, y => g.Joined x y
  | .dependents, x, y => g.Joined y x

@[simp]
theorem mem_neighbours {direction : Direction} {x y : String} :
  y ∈ g.neighbours direction x ↔ g.Leads direction x y
  := by
  cases direction
  · apply mem_dependencies
  · apply mem_dependents

theorem increasing_neighbours (g : Graph) (direction : Direction) (x : String) :
  Increasing (g.neighbours direction x)
  := by
  cases direction
  · apply Ordered.increasing_ofList
  · apply Ordered.increasing_ofList

/-- Following edges in the direction, some path leads from `x` to `y`. -/
def Reachable (g : Graph) (direction : Direction) : String → String → Prop :=
  Relation.ReflTransGen (g.Leads direction)

/-! ### Graphs with the same nodes and edges -/

section Congruence

variable {g' : Graph} (nodes : ∀ x, x ∈ g.nodes ↔ x ∈ g'.nodes)
  (links : ∀ e, e ∈ g.links ↔ e ∈ g'.links)

include nodes in
theorem identities_congr :
  g.identities = g'.identities
  := Ordered.ofList_congr nodes

include links in
theorem edges_congr :
  g.edges = g'.edges
  := Ordered.ofList_congr links

include nodes links

theorem adjacency_congr :
  g.adjacency = g'.adjacency
  := by
  rw [adjacency, adjacency, identities_congr nodes, edges_congr links]

/-- Coherent graphs with the same nodes and edges have the same counts, in whatever order
these were added. -/
theorem Coherent.stats_congr (h : g.Coherent) (h' : g'.Coherent) :
  g.stats = g'.stats
  := by
  have nodePerm : g.nodes.Perm g'.nodes :=
    (List.perm_ext_iff_of_nodup h.nodes_nodup h'.nodes_nodup).mpr nodes
  have linkPerm : g.links.Perm g'.links :=
    (List.perm_ext_iff_of_nodup h.links_nodup h'.links_nodup).mpr links
  have isolated : g.isIsolated = g'.isIsolated := by
    funext x
    rw [isIsolated, isIsolated, linkPerm.any_eq]
  rw [stats, stats, nodePerm.length_eq, linkPerm.length_eq, isolated,
    (nodePerm.filter g'.isIsolated).length_eq]

end Congruence

end SourceAtlas.Graph
