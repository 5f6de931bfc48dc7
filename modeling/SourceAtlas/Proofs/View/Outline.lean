import Mathlib.Algebra.BigOperators.Group.List.Basic
import SourceAtlas.Proofs.Lists
import SourceAtlas.Proofs.Seed.Types
import SourceAtlas.Proofs.View.ClassDiagram
import SourceAtlas.Proofs.View.Reach
import SourceAtlas.View.Outline

/-!
# Plain text shows every edge once

In a plain text an edge stands below the node with the id of its source. It would be lost if there
were no such node, and repeated if there were two. In a view whose nodes have distinct ids, among
them the sources of all edges (`Listable`), neither happens (`perm_leaving`). The views of graphs,
of catalogs and of focused neighbourhoods are of this kind.
-/

namespace SourceAtlas

namespace View

variable {v : View}

/-- The edges that leave a node, in the order of the view. -/
def leaving (v : View) (n : ViewNode) : List Edge :=
  v.edges.filter (·.source == n.id)

/-- The text of a node and of the edges that leave it. -/
def block (v : View) (n : ViewNode) : String :=
  n.id ++ "\n" ++ String.join ((v.leaving n).map fun e => "    -> " ++ e.target ++ "\n")

/-- No two nodes share an id, and every edge starts at a node. -/
structure Listable (v : View) : Prop where
  distinct : (v.nodes.map ViewNode.id).Nodup
  sources : ∀ e ∈ v.edges, e.source ∈ v.nodes.map ViewNode.id

theorem toText_eq_join_block (v : View) :
  v.toText = String.join (v.nodes.map v.block)
  := by
  apply String.toList_inj.mp
  rw [toText, String.toList_join, String.toList_join, List.flatMap_map, List.flatMap_map,
    List.flatMap_assoc]
  congr 1
  funext n
  simp [outlineOf, block, leaving, List.flatMap_map]

namespace Listable

variable (h : v.Listable)
include h

/-- Together the nodes have the edges of the view, each as often as the view has it. -/
theorem perm_leaving :
  (v.nodes.flatMap v.leaving).Perm v.edges
  := by
  have grouped := perm_flatMap_filter Edge.source h.distinct h.sources
  rwa [List.flatMap_map] at grouped

theorem existsUnique_leaving {e : Edge} (he : e ∈ v.edges) :
  ∃! n, n ∈ v.nodes ∧ e ∈ v.leaving n
  := by
  obtain ⟨n, hn, source⟩ := List.mem_map.mp (h.sources e he)
  refine ⟨n, ⟨hn, List.mem_filter.mpr ⟨he, by simpa using source.symm⟩⟩, ?_⟩
  rintro m ⟨hm, leaves⟩
  have source' : e.source = m.id := by simpa using (List.mem_filter.mp leaves).2
  apply List.inj_on_of_nodup_map h.distinct hm hn (source'.symm.trans source.symm)

theorem sum_entries :
  (v.nodes.map fun n => 1 + (v.leaving n).length).sum = v.nodes.length + v.edges.length
  := by
  rw [← h.perm_leaving.length_eq, List.length_flatMap, List.sum_map_add]
  simp

end Listable

end View

/-! ### The views -/

theorem Graph.listable_fullView {g : Graph} (h : g.Coherent) :
  g.fullView.Listable
  where
  distinct := by
    rw [fullView, ViewNode.map_id_plain]
    apply (Ordered.increasing_ofList _).nodup
  sources := by
    intro e he
    rw [fullView, ViewNode.map_id_plain, mem_identities]
    apply (h.ends_mem e (mem_edges.mp he)).1

theorem Graph.listable_reachableView (g : Graph) (seed : String) :
  (g.reachableView seed).Listable
  where
  distinct := by
    obtain ⟨done, final, -⟩ := Reach.exists_progress g seed
    apply final.distinct
  sources := by
    intro e he
    apply Reach.mem_ids_reachableView.mpr (Reach.mem_edges_reachableView.mp he).2.2

theorem Catalog.WellFormed.listable_classView {c : Catalog} (h : c.WellFormed) {r : Resolver}
    (known : ∀ x ∈ c.identities, r.contains x = true) :
  (c.classView r).Listable
  where
  distinct := by
    rw [h.ids_classView known]
    apply c.increasing_identities.nodup.append (Ordered.increasing_ofList _).nodup
    intro x declared missing
    rw [mem_identities, (mem_undeclared.mp missing).1] at declared
    contradiction
  sources := by
    intro e he
    obtain ⟨s, hs, package, -, rfl⟩ := mem_edges_classView.mp he
    rw [h.ids_classView known]
    apply List.mem_append_left _ (mem_identities.mpr (h.sources s hs))

theorem Focus.listable_view (relations : List FocusRelation) (seed : String) (rounds : Nat)
    (c : Option Catalog) :
  ((expand relations seed rounds).view c).Listable
  where
  distinct := by
    rw [Subgraph.map_id_view]
    apply (increasing_expand relations seed rounds).nodup
  sources := by
    intro e he
    rw [Subgraph.map_id_view]
    obtain ⟨r, -, source, -, rfl⟩ := mem_edgesWithin.mp he
    apply source

/-- What a diagram is drawn of. -/
inductive Drawing where
  /-- The graph that some calls build. -/
  | whole (calls : List Graph.Call)
  /-- What a seed reaches in such a graph. -/
  | reached (calls : List Graph.Call) (seed : String)
  /-- The types of some units, for a resolver that knows them all. -/
  | classes (units : List (ParsedUnit × Path)) (r : Resolver)
      (known : ∀ x ∈ (Catalog.build units).identities, r.contains x = true)
  /-- The members around a seed, perhaps with the types of some units. -/
  | focused (relations : List FocusRelation) (seed : String) (rounds : Nat)
      (units : Option (List (ParsedUnit × Path)))

/-- The content of the diagram. -/
def Drawing.view : Drawing → View
  | whole calls => (Graph.build calls).fullView
  | reached calls seed => (Graph.build calls).reachableView seed
  | classes units r _ => (Catalog.build units).classView r
  | focused relations seed rounds units =>
    (Focus.expand relations seed rounds).view (units.map Catalog.build)

theorem Drawing.listable_view (d : Drawing) :
  d.view.Listable
  := by
  cases d with
  | whole calls => apply Graph.listable_fullView (Graph.coherent_build calls)
  | reached calls seed => apply Graph.listable_reachableView
  | classes units r known => apply (Catalog.wellFormed_build units).listable_classView known
  | focused relations seed rounds units => apply Focus.listable_view

/-- The plain text of a diagram is made of one block for each node, in order: the line of the node
and a line for each edge that leaves it, in the order of the edges. Every edge stands in one block
only, and together the blocks have the edges of the view, each as often as the view has it. So there
are as many lines as nodes and edges. -/
theorem toText_shows_all (d : Drawing) :
  let v := d.view
  v.toText = String.join (v.nodes.map v.block)
    ∧ (∀ e ∈ v.edges, ∃! n, n ∈ v.nodes ∧ e ∈ v.leaving n)
    ∧ (v.nodes.flatMap v.leaving).Perm v.edges
    ∧ (v.nodes.map fun n => 1 + (v.leaving n).length).sum = v.nodes.length + v.edges.length
  := by
  intro v
  have listable : v.Listable := d.listable_view
  and_intros
  · apply v.toText_eq_join_block
  · intro e he
    apply listable.existsUnique_leaving he
  · apply listable.perm_leaving
  · apply listable.sum_entries

end SourceAtlas
