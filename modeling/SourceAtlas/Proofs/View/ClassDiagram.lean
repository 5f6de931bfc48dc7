import Mathlib.Data.List.Nodup
import SourceAtlas.Proofs.Catalog
import SourceAtlas.Proofs.Resolver
import SourceAtlas.View

/-!
# Class diagrams

A class diagram has a node for every declared type and one for every target of a relationship
that is not declared. If the resolver knows the declared types, a name that it leaves unresolved
is never that of a declared type (`contains_of_unresolved`), so no node occurs twice. Every
relationship is drawn, since it starts at a declared type, and equal edges are drawn once, where
the first of them occurs (`pairwise_fresh`).
-/

namespace SourceAtlas

open Ordered (Increasing)

/-- The edge of a relationship whose target is resolved in the given package. -/
def Relationship.edgeIn (s : Relationship) (r : Resolver) (package : String) : Edge :=
  ⟨s.source, (r.resolve s.target package).identity, s.kind⟩

namespace Catalog

variable {c : Catalog} {r : Resolver}

/-- A relationship is drawn if its source is declared, with its target resolved in the package of
the source. -/
theorem mem_edges_classView {e : Edge} :
  e ∈ (c.classView r).edges
    ↔ ∃ s ∈ c.relationships, ∃ package, c.packageOf? s.source = some package
      ∧ s.edgeIn r package = e
  := by
  simp [classView, resolvedEdges, Relationship.edgeIn]

/-- What the target of a relationship is taken for: it is resolved in the package of the type
that declares the relationship. -/
def resolution (c : Catalog) (r : Resolver) (s : Relationship) : Resolution :=
  r.resolve s.target ((c.packageOf? s.source).getD defaultPackage)

/-- The edge that a relationship is drawn as. -/
def drawn (c : Catalog) (r : Resolver) (s : Relationship) : Edge :=
  s.edgeIn r ((c.packageOf? s.source).getD defaultPackage)

@[simp]
theorem target_drawn (r : Resolver) (s : Relationship) :
  (c.drawn r s).target = (c.resolution r s).identity
  := rfl

/-- No relationship is passed over. -/
theorem WellFormed.resolvedEdges_eq (h : c.WellFormed) (r : Resolver) :
  c.resolvedEdges r = c.relationships.map fun s => (c.drawn r s, c.resolution r s)
  := by
  rw [resolvedEdges, ← List.filterMap_eq_map]
  apply List.filterMap_congr
  intro s hs
  obtain ⟨package, found⟩ := h.exists_package hs
  simp [drawn, Relationship.edgeIn, resolution, found]

/-- A name that is left unresolved is not that of a declared type. -/
theorem WellFormed.contains_of_unresolved (h : c.WellFormed)
    (known : ∀ x ∈ c.identities, r.contains x = true) {s : Relationship}
    (unresolved : (c.resolution r s).isResolved = false) :
  c.contains (c.resolution r s).identity = false
  := by
  have unchanged : (c.resolution r s).identity = s.target :=
    (Resolver.identity_of_unresolved unresolved).1
  rw [unchanged]
  by_contra! declared
  rw [Bool.ne_false_iff] at declared
  have found : (c.resolution r s).isResolved = true := by
    apply Resolver.isResolved_of_mem _ (h.ne_empty declared)
    apply Resolver.contains_iff.mp (known _ (mem_identities.mpr declared))
  rw [found] at unresolved
  contradiction

/-- The targets that are not declared, in order. -/
def undeclared (c : Catalog) (r : Resolver) : List String :=
  Ordered.ofList ((c.relationships.filter fun s => !c.contains (c.drawn r s).target).map
    fun s => (c.drawn r s).target)

theorem mem_undeclared {x : String} :
  x ∈ c.undeclared r
    ↔ c.contains x = false ∧ ∃ s ∈ c.relationships, (c.drawn r s).target = x
  := by
  simp only [undeclared, Ordered.mem_ofList, List.mem_map, List.mem_filter, Bool.not_eq_true']
  constructor
  · rintro ⟨s, ⟨hs, missing⟩, rfl⟩
    exact ⟨missing, s, hs, rfl⟩
  · rintro ⟨missing, s, hs, rfl⟩
    exact ⟨s, ⟨hs, missing⟩, rfl⟩

/-- The nodes are the declared types and then the targets that are not declared. -/
theorem WellFormed.ids_classView (h : c.WellFormed)
    (known : ∀ x ∈ c.identities, r.contains x = true) :
  (c.classView r).nodes.map ViewNode.id = c.identities ++ c.undeclared r
  := by
  have types : (c.types.map ViewNode.ofType).map ViewNode.id = c.identities := by
    rw [List.map_map, ← c.map_fullName_types]
    rfl
  have missing (s : Relationship) : (!(c.resolution r s).isResolved
      || !c.contains (c.resolution r s).identity) = !c.contains (c.drawn r s).target := by
    cases resolved : (c.resolution r s).isResolved with
    | false => simp [h.contains_of_unresolved known resolved]
    | true => simp
  rw [classView, List.map_append, types, ViewNode.map_id_plain, h.resolvedEdges_eq,
    List.filter_map, List.map_map, undeclared]
  simp only [Function.comp_def, missing]

end Catalog

end SourceAtlas
