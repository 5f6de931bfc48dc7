import SourceAtlas.Proofs.Resolver.Choice
import SourceAtlas.Proofs.View.ClassDiagram

/-!
# Catalogs that are extended by a unit

A resolver that comes to know more identities keeps its answers, except that an answer may become
one of the new identities (`Resolves.of_append`): an identity that is preferred to all others is
preferred to fewer others all the more. When a unit declares only new full names, the records of a
catalog stay (`get?_addUnit`), so its relationships are resolved in the same packages as before.
-/

namespace SourceAtlas

/-! ### More identities -/

namespace Resolver

variable {tieBreak : TieBreak} {identities new : List String} {name package x : String}

theorem Candidate.append_left (h : Candidate identities name x) (new : List String) :
  Candidate (identities ++ new) name x
  := by
  obtain ⟨listed, holds⟩ := h
  exact ⟨List.mem_append_left new listed, holds⟩

/-- What is preferred among more identities is preferred among fewer. -/
theorem Preferred.of_append (h : Preferred tieBreak (identities ++ new) name x)
    (listed : x ∈ identities) :
  Preferred tieBreak identities name x
  where
  candidate := ⟨listed, h.candidate.2⟩
  prefers y hy := h.prefers y (hy.append_left new)

/-- An answer given more identities is the answer without them, or it is one of them: a name that
nothing held before can only be held by a new one. -/
theorem Resolves.of_append {answer : Resolution}
    (h : Resolves tieBreak (identities ++ new) name package answer) :
  Resolves tieBreak identities name package answer ∨ answer.identity ∈ new
  := by
  cases h with
  | samePackage listed =>
    obtain old | new := List.mem_append.mp listed
    · apply Or.inl (.samePackage old)
    · apply Or.inr new
  | fuzzy missing proper preferred =>
    obtain old | new := List.mem_append.mp preferred.candidate.1
    · apply Or.inl
      apply Resolves.fuzzy (mt (List.mem_append_left _) missing) proper (preferred.of_append old)
    · apply Or.inr new
  | unresolved missing nowhere =>
    apply Or.inl
    apply Resolves.unresolved (mt (List.mem_append_left _) missing)
    apply nowhere.imp_right
    intro none x candidate
    exact none x (candidate.append_left new)

theorem resolve_ofList_append (tieBreak : TieBreak) (identities new : List String)
    (name package : String) :
  let answer := (ofList (identities ++ new) tieBreak).resolve name package
  answer = (ofList identities tieBreak).resolve name package ∨ answer.identity ∈ new
  := by
  intro answer
  apply (resolves_resolve tieBreak (identities ++ new) name package).of_append.imp_left
  intro resolves
  apply resolves.unique (resolves_resolve tieBreak identities name package)

end Resolver

/-! ### One more unit -/

/-- The full names that a unit declares. -/
def ParsedUnit.fullNames (u : ParsedUnit) : List String :=
  u.types.map fun d => qualify u.packageName d.name

theorem ParsedUnit.map_fullName_infos (u : ParsedUnit) (origin : Path) :
  (u.infos origin).map TypeInfo.fullName = u.fullNames
  := by
  rw [infos, List.map_map]
  rfl

theorem ParsedUnit.source_mem_fullNames {u : ParsedUnit} {s : Relationship}
    (h : s ∈ u.relationships) :
  s.source ∈ u.fullNames
  := by
  obtain ⟨d, hd, hs⟩ := List.mem_flatMap.mp h
  rw [source_of_mem_declared hs]
  apply List.mem_map_of_mem hd

namespace Catalog

variable {c : Catalog} {u : ParsedUnit} {origin : Path} {x : String}

/-- The record of a name that the unit does not declare stays. -/
theorem get?_addUnit (missing : x ∉ u.fullNames) :
  (c.addUnit u origin).get? x = c.get? x
  := by
  have nowhere : (u.infos origin).reverse.find? (·.fullName == x) = none := by
    apply List.find?_eq_none.mpr
    intro info hi same
    apply missing
    rw [← u.map_fullName_infos origin, ← beq_iff_eq.mp same]
    apply List.mem_map_of_mem (List.mem_reverse.mp hi)
  rw [get?, addUnit, List.reverse_append, List.find?_append, nowhere]
  rfl

theorem packageOf?_addUnit (missing : x ∉ u.fullNames) :
  (c.addUnit u origin).packageOf? x = c.packageOf? x
  := by
  rw [packageOf?, packageOf?, get?_addUnit missing]

theorem mem_identities_addUnit :
  x ∈ (c.addUnit u origin).identities ↔ x ∈ c.identities ++ u.fullNames
  := by
  rw [identities, identities, addUnit, List.map_append, u.map_fullName_infos]
  simp only [Ordered.mem_ofList, List.mem_append]

theorem resolver_addUnit (tieBreak : TieBreak) :
  (c.addUnit u origin).resolver tieBreak = Resolver.ofList (c.identities ++ u.fullNames) tieBreak
  := by
  rw [resolver, Resolver.ofList, Resolver.ofList]
  congr 1
  apply Ordered.ofList_congr
  intro x
  apply mem_identities_addUnit

/-- A relationship of the extended catalog that starts at an earlier type is an earlier one. -/
theorem mem_relationships_of_addUnit {s : Relationship}
    (h : s ∈ (c.addUnit u origin).relationships) (missing : s.source ∉ u.fullNames) :
  s ∈ c.relationships
  := by
  obtain old | new := List.mem_append.mp h
  · apply old
  · exact absurd (ParsedUnit.source_mem_fullNames new) missing

/-- A unit that declares only new full names leaves the relationships of a catalog as they are
resolved, except that some of them may now be resolved to the new types. Both class diagrams draw
each relationship of the catalog with its target resolved in the same package. Either the answer
stays the same or it is a new full name. An edge in the class diagram of the extended catalog that
leaves an earlier type is that of an earlier relationship. -/
theorem addUnit_links_new_types_only (units : List (ParsedUnit × Path)) (tieBreak : TieBreak)
    (u : ParsedUnit) (origin : Path)
    (new : ∀ x ∈ u.fullNames, (build units).contains x = false) :
  let c := build units
  let c' := c.addUnit u origin
  let r := c.resolver tieBreak
  let r' := c'.resolver tieBreak
  (∀ s ∈ c.relationships, ∃ package,
      c.packageOf? s.source = some package
        ∧ c'.packageOf? s.source = some package
        ∧ s.edgeIn r package ∈ (c.classView r).edges
        ∧ s.edgeIn r' package ∈ (c'.classView r').edges
        ∧ (r'.resolve s.target package = r.resolve s.target package
          ∨ (r'.resolve s.target package).identity ∈ u.fullNames))
    ∧ ∀ e ∈ (c'.classView r').edges, c.contains e.source = true →
        ∃ s ∈ c.relationships, ∃ package, c.packageOf? s.source = some package
          ∧ s.edgeIn r' package = e
  := by
  intro c c' r r'
  have wellFormed : c.WellFormed := wellFormed_build units
  have missing {x : String} (known : c.contains x = true) : x ∉ u.fullNames := by
    intro declared
    rw [new x declared] at known
    contradiction
  constructor
  · intro s hs
    obtain ⟨package, found⟩ := wellFormed.exists_package hs
    have found' : c'.packageOf? s.source = some package :=
      (packageOf?_addUnit (missing (wellFormed.sources s hs))).trans found
    refine ⟨package, found, found', ?_, ?_, ?_⟩
    · apply mem_edges_classView.mpr
      exact ⟨s, hs, package, found, rfl⟩
    · apply mem_edges_classView.mpr
      exact ⟨s, List.mem_append_left _ hs, package, found', rfl⟩
    · have same : r' = Resolver.ofList (c.identities ++ u.fullNames) tieBreak :=
        resolver_addUnit tieBreak
      rw [same]
      apply Resolver.resolve_ofList_append
  · intro e he known
    obtain ⟨s, hs, package, found', rfl⟩ := mem_edges_classView.mp he
    have earlier : s.source ∉ u.fullNames := missing known
    refine ⟨s, mem_relationships_of_addUnit hs earlier, package, ?_, rfl⟩
    apply (packageOf?_addUnit earlier).symm.trans found'

/-- A parent that was taken for a type of another package, until the type that is meant is
added. -/
theorem addUnit_links_new_zoo_animal :
  let units : List (ParsedUnit × Path) :=
    [(⟨some "zoo", [⟨"Dog", .classType, ["Animal"], ["Pet"]⟩]⟩, ⟨"zoo/Dog.java"⟩),
     (⟨some "lab", [⟨"AnimalTest", .classType, [], []⟩]⟩, ⟨"lab/AnimalTest.java"⟩)]
  let u : ParsedUnit := ⟨some "zoo", [⟨"Animal", .classType, [], ["Living"]⟩]⟩
  let c := build units
  let c' := c.addUnit u ⟨"zoo/Animal.java"⟩
  let r := c.resolver .shortestName
  let r' := c'.resolver .shortestName
  (∀ x ∈ u.fullNames, c.contains x = false)
    ∧ r.resolve "Animal" "zoo" = .fuzzy "lab.AnimalTest"
    ∧ r'.resolve "Animal" "zoo" = .samePackage "zoo.Animal"
    ∧ ∀ e ∈ (c'.classView r').edges, c.contains e.source = true →
        ∃ s ∈ c.relationships, ∃ package, c.packageOf? s.source = some package
          ∧ s.edgeIn r' package = e
  := by
  intro units u c c' r r'
  have new : ∀ x ∈ u.fullNames, c.contains x = false := by decide
  obtain ⟨-, earlier⟩ :=
    addUnit_links_new_types_only units .shortestName u ⟨"zoo/Animal.java"⟩ new
  exact ⟨new, by decide +kernel, by decide +kernel, earlier⟩

end Catalog

end SourceAtlas
