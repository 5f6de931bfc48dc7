import SourceAtlas.Proofs.Ordered
import SourceAtlas.Resolver

/-!
# What the resolver finds

A resolution takes one of three steps (`resolve_cases`). The second step looks for a known
identity that holds the name as a part. A known identity is a part of itself, so it is never left
unresolved (`isResolved_of_mem`).
-/

namespace SourceAtlas

theorem Text.occursIn_iff {needle cs : List Char} :
  Text.occursIn needle cs = true ↔ needle <:+: cs
  := by
  induction cs with
  | nil => simp [occursIn]
  | cons c cs ih =>
    rw [occursIn, Bool.or_eq_true, ih, List.isPrefixOf_iff_prefix, List.infix_cons_iff]

namespace Resolver

variable {r : Resolver} {name package x : String}

@[simp]
theorem contains_iff :
  r.contains x = true ↔ x ∈ r.known
  := Ordered.search_iff r.increasing

theorem mem_holding :
  x ∈ r.holding name ↔ x ∈ r.known ∧ Text.lower name <:+: Text.lower x
  := by
  rw [holding, List.mem_filter, Text.occursIn_iff]

theorem shortest?_eq_none {xs : List String} :
  shortest? xs = none ↔ xs = []
  := by
  cases xs with
  | nil => simp [shortest?]
  | cons x xs =>
    rw [shortest?]
    split
    · split <;> simp
    · simp

theorem pick?_eq_none {xs : List String} :
  r.pick? xs = none ↔ xs = []
  := by
  rw [pick?]
  split
  · apply List.head?_eq_none_iff
  · apply shortest?_eq_none

/-- The three steps of a resolution: the package has the name, or some known identity holds it,
or it stays as it is. -/
theorem resolve_cases (r : Resolver) (name package : String) :
  (qualify package name ∈ r.known
      ∧ r.resolve name package = .samePackage (qualify package name))
    ∨ (qualify package name ∉ r.known ∧ name ≠ ""
      ∧ ∃ x, r.pick? (r.holding name) = some x ∧ r.resolve name package = .fuzzy x)
    ∨ (qualify package name ∉ r.known ∧ (name = "" ∨ r.holding name = [])
      ∧ r.resolve name package = .unresolved name)
  := by
  by_cases known : qualify package name ∈ r.known
  · rw [resolve, if_pos (contains_iff.mpr known)]
    exact .inl ⟨known, rfl⟩
  · rw [resolve, if_neg (mt contains_iff.mp known)]
    by_cases blank : name = ""
    · rw [if_pos (String.isEmpty_iff.mpr blank)]
      exact .inr (.inr ⟨known, .inl blank, rfl⟩)
    · rw [if_neg (mt String.isEmpty_iff.mp blank)]
      cases picked : r.pick? (r.holding name) with
      | some x => exact .inr (.inl ⟨known, blank, x, rfl, rfl⟩)
      | none => exact .inr (.inr ⟨known, .inr (pick?_eq_none.mp picked), rfl⟩)

theorem identity_of_unresolved (h : (r.resolve name package).isResolved = false) :
  (r.resolve name package).identity = name ∧ (name = "" ∨ r.holding name = [])
  := by
  obtain ⟨-, same⟩ | ⟨-, -, x, -, same⟩ | ⟨-, missing, same⟩ := resolve_cases r name package
  · rw [same] at h
    contradiction
  · rw [same] at h
    contradiction
  · rw [same]
    exact ⟨rfl, missing⟩

theorem isResolved_of_mem_holding (held : x ∈ r.holding name) (proper : name ≠ "") :
  (r.resolve name package).isResolved = true
  := by
  apply Decidable.byContradiction
  intro unresolved
  obtain ⟨-, blank | none⟩ := identity_of_unresolved (by simpa using unresolved)
  · exact proper blank
  · rw [none] at held
    cases held

/-- A known identity holds its own name, so that the name is not left unresolved. -/
theorem isResolved_of_mem (known : name ∈ r.known) (proper : name ≠ "") :
  (r.resolve name package).isResolved = true
  := by
  apply isResolved_of_mem_holding (mem_holding.mpr ⟨known, List.infix_rfl⟩) proper

end Resolver

end SourceAtlas
