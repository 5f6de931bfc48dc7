import SourceAtlas.Proofs.Catalog
import SourceAtlas.Proofs.Lists
import SourceAtlas.Query

/-!
# What a catalog keeps of its units

The units of a catalog declare types one after the other. Of several declarations of one full name
the catalog keeps the record of the last (`get?_build`), while the relationships of all of them
stay, in the order of the declarations (`relationships_build`). Grouping by packages loses no
record, so that the sizes of the packages add up to the number of types.
-/

namespace SourceAtlas

open Ordered (Increasing)

/-! ### Declarations in their units -/

/-- A declaration with its unit and the file of the unit. -/
structure Occurrence where
  unit : ParsedUnit
  origin : Path
  declaration : Declaration

namespace Occurrence

/-- The package of the unit, or else the default one. -/
def package (o : Occurrence) : String :=
  o.unit.package.getD "default"

/-- The package and the name with a dot between them. -/
def fullName (o : Occurrence) : String :=
  o.package ++ "." ++ o.declaration.name

/-- What is recorded of the declared type. -/
def record (o : Occurrence) : TypeInfo where
  name := o.declaration.name
  fullName := o.fullName
  kind := o.declaration.kind
  package := o.package
  origin := o.origin

/-- One relationship for every parent and then one for every interface. -/
def relationships (o : Occurrence) : List Relationship :=
  o.declaration.extending.map (⟨.extending, o.fullName, ·⟩)
    ++ o.declaration.implementing.map (⟨.implementing, o.fullName, ·⟩)

end Occurrence

/-- The declarations of some units, in the order of the units and then of their texts. -/
def occurrences (units : List (ParsedUnit × Path)) : List Occurrence :=
  units.flatMap fun u => u.1.types.map (Occurrence.mk u.1 u.2)

namespace Catalog

variable {c : Catalog} {units : List (ParsedUnit × Path)} {x : String} {info : TypeInfo}

theorem declared_foldl_addUnit (c : Catalog) (units : List (ParsedUnit × Path)) :
  (units.foldl (fun c u => c.addUnit u.1 u.2) c).declared
    = c.declared ++ (occurrences units).map Occurrence.record
  := by
  induction units generalizing c with
  | nil => simp [occurrences]
  | cons u units ih =>
    have unit : u.1.infos u.2 = (u.1.types.map (Occurrence.mk u.1 u.2)).map Occurrence.record := by
      rw [List.map_map]
      rfl
    rw [List.foldl_cons, ih, addUnit, unit, occurrences, occurrences, List.flatMap_cons,
      List.map_append, List.append_assoc]

theorem declared_build (units : List (ParsedUnit × Path)) :
  (build units).declared = (occurrences units).map Occurrence.record
  := declared_foldl_addUnit empty units

theorem relationships_foldl_addUnit (c : Catalog) (units : List (ParsedUnit × Path)) :
  (units.foldl (fun c u => c.addUnit u.1 u.2) c).relationships
    = c.relationships ++ (occurrences units).flatMap Occurrence.relationships
  := by
  induction units generalizing c with
  | nil => simp [occurrences]
  | cons u units ih =>
    have unit : u.1.relationships
        = (u.1.types.map (Occurrence.mk u.1 u.2)).flatMap Occurrence.relationships := by
      rw [List.flatMap_map]
      rfl
    rw [List.foldl_cons, ih, addUnit, unit, occurrences, occurrences, List.flatMap_cons,
      List.flatMap_append, List.append_assoc]

/-- The relationships of all declarations pile up. -/
theorem relationships_build (units : List (ParsedUnit × Path)) :
  (build units).relationships = (occurrences units).flatMap Occurrence.relationships
  := relationships_foldl_addUnit empty units

/-! ### Records -/

/-- Of the declarations of a full name, the last one is kept. -/
theorem get?_build :
  (build units).get? x = some info
    ↔ ∃ before o after, occurrences units = before ++ o :: after ∧ o.fullName = x
      ∧ (∀ later ∈ after, later.fullName ≠ x) ∧ o.record = info
  := by
  rw [get?, declared_build, ← List.map_reverse, List.find?_map, Option.map_eq_some_iff]
  simp only [find?_reverse_eq_some_iff, Function.comp_apply, beq_iff_eq, beq_eq_false_iff_ne]
  constructor
  · rintro ⟨o, ⟨before, after, split, name, last⟩, same⟩
    exact ⟨before, o, after, split, name, last, same⟩
  · rintro ⟨before, o, after, split, name, last, same⟩
    exact ⟨o, ⟨before, after, split, name, last⟩, same⟩

theorem contains_build :
  (build units).contains x = true ↔ ∃ o ∈ occurrences units, o.fullName = x
  := by
  rw [contains_iff, declared_build]
  simp [Occurrence.record]

theorem contains_of_get? (h : c.get? x = some info) :
  c.contains x = true
  := by
  rw [contains, h]
  rfl

theorem mem_types :
  info ∈ c.types ↔ ∃ x, c.get? x = some info
  := by
  rw [types, List.mem_filterMap]
  constructor
  · rintro ⟨x, -, found⟩
    exact ⟨x, found⟩
  · rintro ⟨x, found⟩
    exact ⟨x, mem_identities.mpr (contains_of_get? found), found⟩

/-! ### Packages -/

theorem map_fst_packages (c : Catalog) :
  c.packages.map Prod.fst = Ordered.ofList (c.types.map TypeInfo.package)
  := by
  rw [packages, List.map_map]
  apply List.map_id

/-- The packages hold all records between them, each once. -/
theorem packages_perm (c : Catalog) :
  (c.packages.flatMap Prod.snd).Perm c.types
  := by
  rw [packages, List.flatMap_map]
  apply perm_flatMap_filter TypeInfo.package (Ordered.increasing_ofList _).nodup
  intro info hi
  apply Ordered.mem_ofList.mpr (List.mem_map_of_mem hi)

theorem package_of_mem_packages {group : String × List TypeInfo} (h : group ∈ c.packages) :
  group.2 ≠ [] ∧ ∀ info ∈ group.2, info.package = group.1
  := by
  obtain ⟨package, hp, rfl⟩ := List.mem_map.mp h
  constructor
  · obtain ⟨info, hi, rfl⟩ := List.mem_map.mp (Ordered.mem_ofList.mp hp)
    have here : info ∈ c.types.filter (·.package == info.package) := by simp [hi]
    apply List.ne_nil_of_mem here
  · intro info hi
    obtain ⟨-, same⟩ := List.mem_filter.mp hi
    simpa using same

/-- The catalog of some units. Under a full name it keeps the record of the last declaration of
that name, and its full names are the declared ones. The relationships of all declarations stay, in
order, and start at declared types. The packages are sets of records that share all types between
them, so that the counts of the packages add up to the number of types. -/
theorem build_keeps_declarations (units : List (ParsedUnit × Path)) :
  let c := build units
  let all := occurrences units
  (∀ x info, c.get? x = some info
      ↔ ∃ before o after, all = before ++ o :: after ∧ o.fullName = x
        ∧ (∀ later ∈ after, later.fullName ≠ x) ∧ o.record = info)
    ∧ (∀ x info, c.get? x = some info → info.fullName = x)
    ∧ Increasing c.identities
    ∧ (∀ x, x ∈ c.identities ↔ ∃ o ∈ all, o.fullName = x)
    ∧ c.relationships = all.flatMap Occurrence.relationships
    ∧ (∀ s ∈ c.relationships, s.source ∈ c.identities
        ∧ ∃ package, c.packageOf? s.source = some package)
    ∧ (∀ info, info ∈ c.types ↔ ∃ x, c.get? x = some info)
    ∧ c.types.map TypeInfo.fullName = c.identities
    ∧ Increasing (c.packages.map Prod.fst)
    ∧ (∀ group ∈ c.packages, group.2 ≠ [] ∧ ∀ info ∈ group.2, info.package = group.1)
    ∧ (c.packages.flatMap Prod.snd).Perm c.types
    ∧ ∀ g, (Query.stats g c).packages = c.packages.map (fun group => (group.1, group.2.length))
        ∧ (Query.stats g c).types = c.identities.length
        ∧ ((Query.stats g c).packages.map Prod.snd).sum = (Query.stats g c).types
  := by
  intro c all
  have wellFormed : c.WellFormed := wellFormed_build units
  have names : c.types.map TypeInfo.fullName = c.identities := c.map_fullName_types
  and_intros
  · intro x info
    apply get?_build
  · intro x info found
    apply fullName_of_get? found
  · apply increasing_identities
  · intro x
    rw [mem_identities, contains_build]
  · apply relationships_build
  · intro s hs
    exact ⟨mem_identities.mpr (wellFormed.sources s hs), wellFormed.exists_package hs⟩
  · intro info
    apply mem_types
  · apply names
  · rw [map_fst_packages]
    apply Ordered.increasing_ofList
  · intro group hg
    apply package_of_mem_packages hg
  · apply packages_perm
  · intro g
    and_intros
    · rfl
    · rw [← names, List.length_map]
      rfl
    · rw [Query.stats, List.map_map]
      apply Eq.trans List.length_flatMap.symm c.packages_perm.length_eq

end Catalog

end SourceAtlas
