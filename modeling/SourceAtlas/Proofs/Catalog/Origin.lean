import SourceAtlas.Proofs.Catalog.Records

/-!
# The type that a file stands for

A file declares names, and other files may declare the same names again later. A file holds a full
name as long as the last declaration of that name is one of its own (`Holds`), so that a name may
pass from file to file and come back. The file stands for the first of its declarations whose name
it holds (`identityForFile?_build`). It stands for no type exactly if no catalogued type comes from
it (`identityForFile?_eq_none_iff`).
-/

namespace SourceAtlas

namespace Path

variable {p q : Path}

theorem same_iff :
  p.same q = true ↔ p.components = q.components
  := beq_iff_eq

end Path

namespace Catalog

variable {c : Catalog} {units : List (ParsedUnit × Path)} {p : Path} {x : String} {info : TypeInfo}

/-! ### The record under a name and its file -/

theorem any_get?_iff :
  (c.get? x).any (·.origin.same p) = true
    ↔ ∃ info, c.get? x = some info ∧ info.origin.components = p.components
  := by
  simp only [Option.any_eq_true, Path.same_iff]

theorem mem_declared_of_get? (h : c.get? x = some info) :
  info ∈ c.declared
  := by
  apply List.mem_reverse.mp
  apply List.mem_of_find?_eq_some h

/-- The name with which a file answers is catalogued, and its record comes from that file. -/
theorem exists_get?_of_identityForFile? (h : c.identityForFile? p = some x) :
  ∃ info, c.get? x = some info ∧ info.origin.components = p.components
  := by
  apply any_get?_iff.mp
  apply List.find?_some h

/-- A file stands for no type exactly if no catalogued type comes from it. The record of such a type
would stand among the declarations of the file, under a name that is not lost. -/
theorem identityForFile?_eq_none_iff :
  c.identityForFile? p = none ↔ ∀ info ∈ c.types, info.origin.components ≠ p.components
  := by
  constructor
  · intro unnamed info listed same
    obtain ⟨x, found⟩ := mem_types.mp listed
    have declared : info.fullName
        ∈ (c.declared.filter (·.origin.same p)).map TypeInfo.fullName := by
      apply List.mem_map_of_mem
      apply List.mem_filter.mpr
      exact ⟨mem_declared_of_get? found, Path.same_iff.mpr same⟩
    apply List.find?_eq_none.mp unnamed info.fullName declared
    rw [fullName_of_get? found]
    apply any_get?_iff.mpr
    exact ⟨info, found, same⟩
  · intro foreign
    by_contra named
    obtain ⟨x, named⟩ := Option.ne_none_iff_exists'.mp named
    obtain ⟨info, found, same⟩ := exists_get?_of_identityForFile? named
    apply foreign info _ same
    apply mem_types.mpr
    exact ⟨x, found⟩

/-! ### Names that pass from file to file -/

/-- The last of the declarations of `x` was read from the file at `p`. -/
def Holds (all : List Occurrence) (p : Path) (x : String) : Prop :=
  ∃ before o after, all = before ++ o :: after
    ∧ o.fullName = x ∧ o.origin.components = p.components ∧ ∀ later ∈ after, later.fullName ≠ x

theorem any_get?_build_iff :
  ((build units).get? x).any (·.origin.same p) = true ↔ Holds (occurrences units) p x
  := by
  rw [any_get?_iff]
  simp only [get?_build]
  constructor
  · rintro ⟨_, ⟨before, o, after, split, name, last, rfl⟩, same⟩
    exact ⟨before, o, after, split, name, same, last⟩
  · rintro ⟨before, o, after, split, name, same, last⟩
    exact ⟨o.record, ⟨before, o, after, split, name, last, rfl⟩, same⟩

/-- Among the declarations of a file, the first whose name it holds gives the answer. -/
theorem identityForFile?_build :
  (build units).identityForFile? p = some x
    ↔ ∃ before o after, occurrences units = before ++ o :: after
      ∧ o.origin.components = p.components ∧ o.fullName = x ∧ Holds (occurrences units) p x
      ∧ ∀ earlier ∈ before, earlier.origin.components = p.components →
          ¬ Holds (occurrences units) p earlier.fullName
  := by
  rw [identityForFile?, declared_build, List.find?_map, List.find?_filter, List.find?_map,
    Option.map_map, Option.map_eq_some_iff]
  simp only [List.find?_eq_some_iff_append, Function.comp_apply, Bool.not_eq_true',
    decide_eq_true_eq, decide_eq_false_iff_not, Path.same_iff, any_get?_build_iff, not_and]
  constructor
  · rintro ⟨o, ⟨⟨same, held⟩, before, after, split, earlier⟩, rfl⟩
    exact ⟨before, o, after, split, same, rfl, held, earlier⟩
  · rintro ⟨before, o, after, split, same, rfl, held, earlier⟩
    exact ⟨o, ⟨⟨same, held⟩, before, after, split, earlier⟩, rfl⟩

/-- The type that a file stands for after some units have been added. It is the first full name, in
the order in which the file declared them, whose last declaration among all units is one of the
file. There is none exactly if no catalogued type comes from the file. So the file of every
catalogued type stands for some type, and the type that a file stands for is always catalogued and
comes from that file. -/
theorem file_stands_for_first_held (units : List (ParsedUnit × Path)) (p : Path) :
  let c := build units
  let all := occurrences units
  (∀ x, c.identityForFile? p = some x
      ↔ ∃ before o after, all = before ++ o :: after
        ∧ o.origin.components = p.components ∧ o.fullName = x ∧ Holds all p x
        ∧ ∀ earlier ∈ before, earlier.origin.components = p.components →
            ¬ Holds all p earlier.fullName)
    ∧ (c.identityForFile? p = none ↔ ∀ info ∈ c.types, info.origin.components ≠ p.components)
    ∧ (∀ info ∈ c.types, ∃ x, c.identityForFile? info.origin = some x)
    ∧ (∀ x, c.identityForFile? p = some x →
        x ∈ c.identities ∧ ∃ info, c.get? x = some info ∧ info.origin.components = p.components)
  := by
  intro c all
  and_intros
  · intro x
    apply identityForFile?_build
  · apply identityForFile?_eq_none_iff
  · intro info listed
    apply Option.ne_none_iff_exists'.mp
    intro unnamed
    apply identityForFile?_eq_none_iff.mp unnamed info listed rfl
  · intro x named
    obtain ⟨info, found, same⟩ := exists_get?_of_identityForFile? named
    exact ⟨mem_identities.mpr (contains_of_get? found), info, found, same⟩

/-- A name that another file took over comes back with a later declaration. -/
example :
  let dup : ParsedUnit := { package := some "a", types := [⟨"Dup", .classType, [], []⟩] }
  let taken := build [(dup, ⟨"one/Dup.java"⟩), (dup, ⟨"two/Dup.java"⟩)]
  taken.identityForFile? ⟨"one/Dup.java"⟩ = none
    ∧ (taken.addUnit dup ⟨"one//Dup.java"⟩).identityForFile? ⟨"one/Dup.java"⟩ = some "a.Dup"
  := by
  decide +kernel

end Catalog

end SourceAtlas
