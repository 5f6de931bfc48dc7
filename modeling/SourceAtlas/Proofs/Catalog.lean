import SourceAtlas.Catalog
import SourceAtlas.Proofs.Ordered

/-!
# Catalogs that are built from units

A catalog collects units one after the other. Whatever the units are, its records stay keyed by
the full names that they spell out, and every relationship starts at a declared type
(`wellFormed_build`). What is looked up under a full name is a record of that name, so the
records listed in order carry the declared full names, each once.
-/

namespace SourceAtlas

open Ordered (Increasing)

theorem ParsedUnit.source_of_mem_declared {u : ParsedUnit} {d : Declaration} {s : Relationship}
    (h : s ∈ u.declared d) :
  s.source = qualify u.packageName d.name
  := by
  obtain parent | interface := List.mem_append.mp h
  · obtain ⟨target, -, rfl⟩ := List.mem_map.mp parent
    rfl
  · obtain ⟨target, -, rfl⟩ := List.mem_map.mp interface
    rfl

namespace Catalog

variable {c : Catalog} {x : String}

/-- The catalog that collects some units, each read from a file. -/
def build (units : List (ParsedUnit × Path)) : Catalog :=
  units.foldl (fun c u => c.addUnit u.1 u.2) empty

/-! ### Records -/

theorem fullName_of_get? {info : TypeInfo} (h : c.get? x = some info) :
  info.fullName = x
  := by
  have found := List.find?_some h
  simpa using found

@[simp]
theorem contains_iff :
  c.contains x = true ↔ ∃ info ∈ c.declared, info.fullName = x
  := by
  simp [contains, get?]

@[simp]
theorem mem_identities :
  x ∈ c.identities ↔ c.contains x = true
  := by
  simp [identities]

theorem increasing_identities (c : Catalog) :
  Increasing c.identities
  := Ordered.increasing_ofList _

theorem exists_get? (h : c.contains x = true) :
  ∃ info, c.get? x = some info
  := Option.isSome_iff_exists.mp h

theorem map_fullName_filterMap_get? {names : List String}
    (declared : ∀ x ∈ names, c.contains x = true) :
  (names.filterMap c.get?).map TypeInfo.fullName = names
  := by
  induction names with
  | nil => rfl
  | cons x names ih =>
    obtain ⟨info, found⟩ := exists_get? (declared x List.mem_cons_self)
    rw [List.filterMap_cons_some found, List.map_cons, fullName_of_get? found,
      ih fun y hy => declared y (List.mem_cons_of_mem x hy)]

/-- The records in order carry the declared full names in order. -/
theorem map_fullName_types (c : Catalog) :
  c.types.map TypeInfo.fullName = c.identities
  := by
  apply map_fullName_filterMap_get?
  intro x hx
  apply mem_identities.mp hx

/-! ### Units -/

/-- Every record is kept under the full name of its type, and every relationship starts at a
declared type. -/
structure WellFormed (c : Catalog) : Prop where
  qualified : ∀ info ∈ c.declared, info.fullName = qualify info.package info.name
  sources : ∀ s ∈ c.relationships, c.contains s.source = true

theorem wellFormed_empty :
  empty.WellFormed
  where
  qualified := by simp [empty]
  sources := by simp [empty]

theorem WellFormed.addUnit (h : c.WellFormed) (u : ParsedUnit) (origin : Path) :
  (c.addUnit u origin).WellFormed
  := by
  constructor
  · intro info hi
    obtain old | new := List.mem_append.mp hi
    · apply h.qualified info old
    · obtain ⟨d, -, rfl⟩ := List.mem_map.mp new
      rfl
  · intro s hs
    obtain old | new := List.mem_append.mp hs
    · obtain ⟨info, hi, name⟩ := contains_iff.mp (h.sources s old)
      exact contains_iff.mpr ⟨info, List.mem_append_left _ hi, name⟩
    · obtain ⟨d, hd, hs⟩ := List.mem_flatMap.mp new
      apply contains_iff.mpr
      refine ⟨u.info origin d, ?_, ?_⟩
      · apply List.mem_append_right _ (List.mem_map_of_mem hd)
      · apply (ParsedUnit.source_of_mem_declared hs).symm

theorem WellFormed.foldl_addUnit (h : c.WellFormed) (units : List (ParsedUnit × Path)) :
  (units.foldl (fun c u => c.addUnit u.1 u.2) c).WellFormed
  := by
  induction units generalizing c with
  | nil => apply h
  | cons u units ih => apply ih (h.addUnit u.1 u.2)

theorem wellFormed_build (units : List (ParsedUnit × Path)) :
  (build units).WellFormed
  := wellFormed_empty.foldl_addUnit units

/-- A full name has a dot, so it is not blank. -/
theorem WellFormed.ne_empty (h : c.WellFormed) (known : c.contains x = true) :
  x ≠ ""
  := by
  obtain ⟨info, hi, rfl⟩ := contains_iff.mp known
  rw [h.qualified info hi, qualify]
  intro blank
  simpa using congrArg String.toList blank

/-- The package in which the names of a relationship are meant is known. -/
theorem WellFormed.exists_package (h : c.WellFormed) {s : Relationship}
    (hs : s ∈ c.relationships) :
  ∃ package, c.packageOf? s.source = some package
  := by
  obtain ⟨info, found⟩ := exists_get? (h.sources s hs)
  refine ⟨info.package, ?_⟩
  rw [packageOf?, found]
  rfl

end Catalog

end SourceAtlas
