import SourceAtlas.Proofs.Catalog.Records
import SourceAtlas.Proofs.Focus
import SourceAtlas.Proofs.View.ClassDiagram

/-!
# The order in which units arrive

Catalogs are alike if they keep the same records under the same names and the same relationships,
in whatever order these came in. What is listed in order is the same for alike catalogs
(`Alike.types_eq`, `Alike.nodes_classView`), and so is all that depends only on which relationships
there are (`Alike.expand_eq`). The edges of a class diagram are listed where they first occur, so
they are the same up to their order. Where no full name is declared twice, units that arrive in
another order give a catalog that is alike (`alike_of_perm`).
-/

namespace SourceAtlas.Catalog

open Focus (expand)

variable {c c' : Catalog} {units units' : List (ParsedUnit × Path)}

/-! ### Alike catalogs -/

/-- The catalogs keep the same records and the same relationships. -/
structure Alike (c c' : Catalog) : Prop where
  get?_eq : ∀ x, c.get? x = c'.get? x
  mem_relationships : ∀ s, s ∈ c.relationships ↔ s ∈ c'.relationships

namespace Alike

variable (h : c.Alike c')
include h

theorem contains_eq (x : String) :
  c.contains x = c'.contains x
  := by
  rw [contains, contains, h.get?_eq]

theorem packageOf?_eq (x : String) :
  c.packageOf? x = c'.packageOf? x
  := by
  rw [packageOf?, packageOf?, h.get?_eq]

theorem identities_eq :
  c.identities = c'.identities
  := by
  apply c.increasing_identities.ext c'.increasing_identities
  intro x
  rw [mem_identities, mem_identities, h.contains_eq]

theorem types_eq :
  c.types = c'.types
  := by
  rw [types, types, h.identities_eq]
  apply List.filterMap_congr
  intro x _
  apply h.get?_eq

theorem packages_eq :
  c.packages = c'.packages
  := by
  rw [packages, packages, h.types_eq]

theorem resolver_eq (tieBreak : TieBreak) :
  c.resolver tieBreak = c'.resolver tieBreak
  := by
  rw [resolver, resolver, h.identities_eq]

theorem mem_resolvedEdges {r : Resolver} {entry : Edge × Resolution} :
  entry ∈ c.resolvedEdges r ↔ entry ∈ c'.resolvedEdges r
  := by
  simp only [resolvedEdges, List.mem_filterMap, h.mem_relationships, h.packageOf?_eq]

/-- The targets that are not declared are listed in order, like the declared types. -/
theorem nodes_classView (r : Resolver) :
  (c.classView r).nodes = (c'.classView r).nodes
  := by
  simp only [classView, h.types_eq]
  congr 2
  apply Ordered.ofList_congr
  intro x
  simp only [List.mem_map, List.mem_filter, h.mem_resolvedEdges, h.contains_eq]

theorem edges_classView_perm (r : Resolver) :
  (c.classView r).edges.Perm (c'.classView r).edges
  := by
  apply (List.perm_ext_iff_of_nodup (nodup_fresh _ _) (nodup_fresh _ _)).mpr
  intro e
  simp only [mem_fresh, List.mem_map, h.mem_resolvedEdges]

theorem expand_eq (r : Resolver) (seed : String) (rounds : Nat) :
  expand (c.focusRelations r seed) seed rounds = expand (c'.focusRelations r seed) seed rounds
  := by
  apply Focus.expand_congr
  intro relation
  simp only [focusRelations, List.mem_map, h.mem_relationships, h.packageOf?_eq]

theorem view_eq (s : Subgraph) :
  s.view (some c) = s.view (some c')
  := by
  have nodes : s.viewNode (some c) = s.viewNode (some c') := by
    funext x
    simp only [Subgraph.viewNode, Option.bind_some, h.get?_eq]
  rw [Subgraph.view, Subgraph.view, nodes]

end Alike

/-! ### Units in another order -/

theorem occurrences_perm (perm : units.Perm units') :
  (occurrences units).Perm (occurrences units')
  := perm.flatMap_right _

/-- Where no full name is declared twice, every declaration is kept, since no later one replaces
it. -/
theorem get?_build_of_nodup (distinct : ((occurrences units).map Occurrence.fullName).Nodup)
    {x : String} {info : TypeInfo} :
  (build units).get? x = some info
    ↔ ∃ o ∈ occurrences units, o.fullName = x ∧ o.record = info
  := by
  rw [get?_build]
  constructor
  · rintro ⟨before, o, after, split, name, -, same⟩
    refine ⟨o, ?_, name, same⟩
    rw [split]
    apply List.mem_append_right _ List.mem_cons_self
  · rintro ⟨o, ho, name, same⟩
    obtain ⟨before, after, split⟩ := List.append_of_mem ho
    refine ⟨before, o, after, split, name, ?_, same⟩
    intro later hl again
    rw [split, List.map_append, List.map_cons] at distinct
    have single := (List.nodup_cons.mp distinct.of_append_right).1
    exact single (List.mem_map.mpr ⟨later, hl, again.trans name.symm⟩)

theorem alike_of_perm (distinct : ((occurrences units).map Occurrence.fullName).Nodup)
    (perm : units.Perm units') :
  (build units).Alike (build units')
  := by
  have declarations := occurrences_perm perm
  have distinct' : ((occurrences units').map Occurrence.fullName).Nodup :=
    (declarations.map Occurrence.fullName).nodup_iff.mp distinct
  constructor
  · intro x
    apply Option.ext
    intro info
    simp only [get?_build_of_nodup distinct, get?_build_of_nodup distinct', declarations.mem_iff]
  · intro s
    simp only [relationships_build, List.mem_flatMap, declarations.mem_iff]

/-- Where no full name is declared twice, the order of the units is not seen. Their catalogs keep
the same records and packages and have the same resolvers. With any resolver, their class diagrams
have the same nodes and, up to their order, the same edges, and around every seed they have the same
focused subgraphs and focused diagrams. -/
theorem build_order_unobservable (units units' : List (ParsedUnit × Path))
    (distinct : ((occurrences units).map Occurrence.fullName).Nodup)
    (perm : units.Perm units') :
  let c := build units
  let c' := build units'
  (∀ x, c.get? x = c'.get? x)
    ∧ c.types = c'.types
    ∧ c.packages = c'.packages
    ∧ (∀ tieBreak, c.resolver tieBreak = c'.resolver tieBreak)
    ∧ ∀ r,
        (c.classView r).nodes = (c'.classView r).nodes
          ∧ (c.classView r).edges.Perm (c'.classView r).edges
          ∧ ∀ seed rounds,
              let ball := expand (c.focusRelations r seed) seed rounds
              let ball' := expand (c'.focusRelations r seed) seed rounds
              ball = ball' ∧ ball.view (some c) = ball'.view (some c')
  := by
  intro c c'
  have alike : c.Alike c' := alike_of_perm distinct perm
  and_intros
  · apply alike.get?_eq
  · apply alike.types_eq
  · apply alike.packages_eq
  · apply alike.resolver_eq
  · intro r
    and_intros
    · apply alike.nodes_classView
    · apply alike.edges_classView_perm
    · intro seed rounds ball ball'
      have same : ball = ball' := alike.expand_eq r seed rounds
      use same
      rw [← same]
      apply alike.view_eq

/-- Two units that arrive in either order. The edges of the class diagrams are listed in different
orders. -/
theorem build_order_unobservable_zoo :
  let dog : ParsedUnit × Path :=
    (⟨some "zoo", [⟨"Dog", .classType, ["Animal"], []⟩, ⟨"Animal", .classType, [], []⟩]⟩,
      ⟨"zoo/Dog.java"⟩)
  let cat : ParsedUnit × Path :=
    (⟨some "pets", [⟨"Cat", .classType, ["Animal"], ["Serializable"]⟩]⟩, ⟨"pets/Cat.java"⟩)
  let c := build [dog, cat]
  let c' := build [cat, dog]
  ((occurrences [dog, cat]).map Occurrence.fullName).Nodup
    ∧ [dog, cat].Perm [cat, dog]
    ∧ c.types = c'.types
    ∧ c.resolver = c'.resolver
    ∧ (c.classView c.resolver).edges.Perm (c'.classView c.resolver).edges
    ∧ (c.classView c.resolver).edges ≠ (c'.classView c.resolver).edges
  := by
  intro dog cat c c'
  have distinct : ((occurrences [dog, cat]).map Occurrence.fullName).Nodup := by decide
  have perm : [dog, cat].Perm [cat, dog] := List.Perm.swap cat dog []
  obtain ⟨-, types, -, resolvers, views⟩ :=
    build_order_unobservable [dog, cat] [cat, dog] distinct perm
  obtain ⟨-, edges, -⟩ := views c.resolver
  exact ⟨distinct, perm, types, resolvers .firstLexical, edges, by decide +kernel⟩

end SourceAtlas.Catalog
