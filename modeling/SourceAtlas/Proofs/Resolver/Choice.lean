import Mathlib.Data.String.Basic
import SourceAtlas.Proofs.Ordered
import SourceAtlas.Proofs.Resolver

/-!
# Which identity the resolver takes

The answer to a short name is settled by the listed identities, in whatever order and however often
they are listed (`Resolves`). Of the identities that hold the name, the resolver takes the one that
its tie break prefers (`preferred_of_pick?`): the known identities are in increasing order, so that
the first of several is the least.
-/

namespace SourceAtlas

open Ordered (Increasing)

/-! ### Preference -/

/-- The tie break prefers `x` to `y`, unless they are the same. Texts are ordered by their code
points. -/
def TieBreak.Prefers : TieBreak → String → String → Prop
  | .firstLexical, x, y => x ≤ y
  | .shortestName, x, y =>
    x.utf8ByteSize < y.utf8ByteSize ∨ (x.utf8ByteSize = y.utf8ByteSize ∧ x ≤ y)

namespace TieBreak.Prefers

variable {tieBreak : TieBreak} {x y z : String}

theorem refl (tieBreak : TieBreak) (x : String) :
  tieBreak.Prefers x x
  := by
  cases tieBreak with
  | firstLexical => apply le_refl x
  | shortestName => exact .inr ⟨rfl, le_refl x⟩

theorem trans (h : tieBreak.Prefers x y) (h' : tieBreak.Prefers y z) :
  tieBreak.Prefers x z
  := by
  cases tieBreak with
  | firstLexical => apply le_trans h h'
  | shortestName =>
    obtain shorter | ⟨size, before⟩ := h
    · obtain shorter' | ⟨size', -⟩ := h'
      · apply Or.inl (Nat.lt_trans shorter shorter')
      · apply Or.inl (size' ▸ shorter)
    · obtain shorter' | ⟨size', before'⟩ := h'
      · apply Or.inl (size ▸ shorter')
      · exact .inr ⟨size.trans size', le_trans before before'⟩

theorem antisymm (h : tieBreak.Prefers x y) (h' : tieBreak.Prefers y x) :
  x = y
  := by
  cases tieBreak with
  | firstLexical => apply le_antisymm h h'
  | shortestName =>
    obtain shorter | ⟨size, before⟩ := h
    · obtain shorter' | ⟨size', -⟩ := h'
      · omega
      · omega
    · obtain shorter' | ⟨-, after⟩ := h'
      · omega
      · apply le_antisymm before after

end TieBreak.Prefers

namespace Resolver

variable {r : Resolver} {tieBreak : TieBreak} {identities : List String} {name package x : String}

/-- The identity is listed and holds the name, both in lower case. -/
def Candidate (identities : List String) (name x : String) : Prop :=
  x ∈ identities ∧ Text.lower name <:+: Text.lower x

/-- Of the candidates for a name, `x` is the one that the tie break prefers. -/
structure Preferred (tieBreak : TieBreak) (identities : List String) (name x : String) : Prop where
  candidate : Candidate identities name x
  prefers : ∀ y, Candidate identities name y → tieBreak.Prefers x y

theorem Preferred.unique {y : String} (h : Preferred tieBreak identities name x)
    (h' : Preferred tieBreak identities name y) :
  x = y
  := (h.prefers y h'.candidate).antisymm (h'.prefers x h.candidate)

theorem Preferred.not_nowhere (h : Preferred tieBreak identities name x) (proper : name ≠ "") :
  ¬ (name = "" ∨ ∀ y, ¬ Candidate identities name y)
  := by
  rintro (blank | none)
  · exact proper blank
  · exact none x h.candidate

/-- The answer to a short name in a package, given the listed identities. -/
inductive Resolves (tieBreak : TieBreak) (identities : List String) (name package : String) :
    Resolution → Prop where
  /-- The identity of that name in the package is listed. -/
  | samePackage (listed : qualify package name ∈ identities) :
    Resolves tieBreak identities name package (.samePackage (qualify package name))
  /-- It is not, and some listed identities hold the name. -/
  | fuzzy {x : String} (missing : qualify package name ∉ identities) (proper : name ≠ "")
      (preferred : Preferred tieBreak identities name x) :
    Resolves tieBreak identities name package (.fuzzy x)
  /-- It is not, and the name is empty or no listed identity holds it. -/
  | unresolved (missing : qualify package name ∉ identities)
      (nowhere : name = "" ∨ ∀ x, ¬ Candidate identities name x) :
    Resolves tieBreak identities name package (.unresolved name)

theorem Resolves.unique {a b : Resolution} (h : Resolves tieBreak identities name package a)
    (h' : Resolves tieBreak identities name package b) :
  a = b
  := by
  cases h with
  | samePackage listed =>
    cases h' with
    | samePackage => rfl
    | fuzzy missing => exact absurd listed missing
    | unresolved missing => exact absurd listed missing
  | fuzzy missing proper preferred =>
    cases h' with
    | samePackage listed => exact absurd listed missing
    | fuzzy _ _ preferred' => rw [preferred.unique preferred']
    | unresolved _ nowhere => exact absurd nowhere (preferred.not_nowhere proper)
  | unresolved missing nowhere =>
    cases h' with
    | samePackage listed => exact absurd listed missing
    | fuzzy _ proper preferred => exact absurd nowhere (preferred.not_nowhere proper)
    | unresolved => rfl

/-! ### The choice -/

theorem le_of_increasing {xs : List String} (h : Increasing (x :: xs)) {y : String} (hy : y ∈ xs) :
  x ≤ y
  := le_of_lt (compare_lt_iff_lt.mp ((List.pairwise_cons.mp h).1 y hy))

/-- Of texts of the same size the first one is kept, which in an increasing list is the least. -/
theorem shortest?_prefers {xs : List String} (h : Increasing xs) (found : shortest? xs = some x) :
  x ∈ xs ∧ ∀ y ∈ xs, TieBreak.shortestName.Prefers x y
  := by
  induction xs generalizing x with
  | nil => cases found
  | cons z zs ih =>
    rw [shortest?] at found
    split at found
    · rename_i best rest
      obtain ⟨mem, least⟩ := ih h.tail rest
      split at found
      · rename_i shorter
        obtain rfl := Option.some.inj found
        use List.mem_cons_of_mem z mem
        intro y hy
        obtain rfl | hy := List.mem_cons.mp hy
        · apply Or.inl shorter
        · apply least y hy
      · rename_i notShorter
        obtain rfl := Option.some.inj found
        have first : TieBreak.shortestName.Prefers z best := by
          obtain shorter | size := Nat.lt_or_eq_of_le (Nat.le_of_not_lt notShorter)
          · apply Or.inl shorter
          · exact .inr ⟨size, le_of_increasing h mem⟩
        use List.mem_cons_self
        intro y hy
        obtain rfl | hy := List.mem_cons.mp hy
        · apply TieBreak.Prefers.refl
        · apply first.trans (least y hy)
    · rename_i none
      obtain rfl := Option.some.inj found
      obtain rfl := shortest?_eq_none.mp none
      use List.mem_cons_self
      intro y hy
      obtain rfl := List.mem_singleton.mp hy
      apply TieBreak.Prefers.refl

theorem head?_prefers {xs : List String} (h : Increasing xs) (found : xs.head? = some x) :
  x ∈ xs ∧ ∀ y ∈ xs, TieBreak.firstLexical.Prefers x y
  := by
  obtain ⟨rest, rfl⟩ := List.head?_eq_some_iff.mp found
  use List.mem_cons_self
  intro y hy
  obtain rfl | hy := List.mem_cons.mp hy
  · apply TieBreak.Prefers.refl
  · apply le_of_increasing h hy

theorem pick?_prefers {xs : List String} (h : Increasing xs) (found : r.pick? xs = some x) :
  x ∈ xs ∧ ∀ y ∈ xs, r.tieBreak.Prefers x y
  := by
  rw [pick?] at found
  split at found
  · rename_i first
    rw [first]
    apply head?_prefers h found
  · rename_i shortest
    rw [shortest]
    apply shortest?_prefers h found

/-! ### The resolver of a list -/

@[simp]
theorem mem_known_ofList :
  x ∈ (ofList identities tieBreak).known ↔ x ∈ identities
  := Ordered.mem_ofList

theorem mem_holding_ofList :
  x ∈ (ofList identities tieBreak).holding name ↔ Candidate identities name x
  := by
  rw [mem_holding, mem_known_ofList, Candidate]

theorem preferred_of_pick?
    (found : (ofList identities tieBreak).pick? ((ofList identities tieBreak).holding name)
      = some x) :
  Preferred tieBreak identities name x
  := by
  have sorted : Increasing ((ofList identities tieBreak).holding name) := by
    apply List.Pairwise.filter
    apply Ordered.increasing_ofList
  obtain ⟨mem, least⟩ := pick?_prefers sorted found
  constructor
  · apply mem_holding_ofList.mp mem
  · intro y hy
    apply least y (mem_holding_ofList.mpr hy)

theorem resolves_resolve (tieBreak : TieBreak) (identities : List String) (name package : String) :
  Resolves tieBreak identities name package ((ofList identities tieBreak).resolve name package)
  := by
  obtain ⟨listed, same⟩ | ⟨missing, proper, x, found, same⟩ | ⟨missing, nowhere, same⟩ :=
    resolve_cases (ofList identities tieBreak) name package
  · rw [same]
    apply Resolves.samePackage (mem_known_ofList.mp listed)
  · rw [same]
    apply Resolves.fuzzy (mt mem_known_ofList.mpr missing) proper (preferred_of_pick? found)
  · rw [same]
    apply Resolves.unresolved (mt mem_known_ofList.mpr missing)
    apply nowhere.imp_right
    intro none x hx
    rw [← mem_holding_ofList, none] at hx
    cases hx

/-- The resolver of a list of identities knows them in increasing order and each once, and contains
no others. Its answer to a short name in a package is the one that the listed identities settle:
the identity of that name in the package; otherwise, of the identities that hold the name, the one
that the tie break prefers; otherwise the name itself. So all lists of the same identities give
the same resolver. -/
theorem ofList_resolves (identities : List String) (tieBreak : TieBreak) :
  let r := ofList identities tieBreak
  Increasing r.known
    ∧ (∀ x, x ∈ r.known ↔ x ∈ identities)
    ∧ (∀ x, r.contains x = true ↔ x ∈ identities)
    ∧ (∀ name package answer,
        r.resolve name package = answer ↔ Resolves tieBreak identities name package answer)
    ∧ ∀ identities', (∀ x, x ∈ identities' ↔ x ∈ identities) → ofList identities' tieBreak = r
  := by
  intro r
  and_intros
  · apply Ordered.increasing_ofList
  · intro x
    apply mem_known_ofList
  · intro x
    rw [contains_iff, mem_known_ofList]
  · intro name package answer
    have resolves := resolves_resolve tieBreak identities name package
    constructor
    · rintro rfl
      apply resolves
    · intro h
      apply resolves.unique h
  · intro identities' same
    apply Resolver.ext
    · apply Ordered.ofList_congr same
    · rfl

end Resolver

end SourceAtlas
