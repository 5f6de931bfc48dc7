import SourceAtlas.Proofs.Focus.Rounds
import SourceAtlas.Proofs.View.ClassDiagram

/-!
# Focused diagrams beside class diagrams

A class diagram resolves the target of a relationship in the package of the declaring type, a
focused diagram in the package of its seed (`mem_edges_expand`). For a type that shares the package
of the seed the two agree (`mem_edges_classView_of_package`): the focused diagram shows those of its
edges in the class diagram that stay among the members, and all of them once the rounds have closed.
-/

namespace SourceAtlas.Catalog

open Focus (expand)

variable {c : Catalog} {r : Resolver} {seed : String} {rounds : Nat} {e : Edge}

/-- The package in which the focus on a seed resolves all targets. -/
def focusPackage (c : Catalog) (seed : String) : String :=
  (c.packageOf? seed).getD defaultPackage

theorem mem_edges_expand :
  e ∈ (expand (c.focusRelations r seed) seed rounds).edges
    ↔ (∃ s ∈ c.relationships, s.edgeIn r (c.focusPackage seed) = e)
      ∧ e.source ∈ (expand (c.focusRelations r seed) seed rounds).members
      ∧ e.target ∈ (expand (c.focusRelations r seed) seed rounds).members
  := Focus.mem_edgesWithin_map

/-- A relationship leads from its source to its target as the focus resolves it. -/
theorem step_edgeIn {s : Relationship} (hs : s ∈ c.relationships) :
  Focus.Step (c.focusRelations r seed) s.source (s.edgeIn r (c.focusPackage seed)).target
  := ⟨_, List.mem_map_of_mem hs, .inl ⟨rfl, rfl⟩⟩

/-- For a declared source in the package of the seed, both kinds of diagrams resolve alike. -/
theorem mem_edges_classView_of_package (declared : c.contains e.source = true)
    (same : c.packageOf? e.source = c.packageOf? seed) :
  e ∈ (c.classView r).edges ↔ ∃ s ∈ c.relationships, s.edgeIn r (c.focusPackage seed) = e
  := by
  obtain ⟨info, found⟩ := exists_get? declared
  have package : c.packageOf? e.source = some (c.focusPackage seed) := by
    rw [focusPackage, ← same, packageOf?, found]
    rfl
  rw [mem_edges_classView]
  constructor
  · rintro ⟨s, hs, package', here, rfl⟩
    obtain rfl := Option.some.inj (package.symm.trans here)
    exact ⟨s, hs, rfl⟩
  · rintro ⟨s, hs, rfl⟩
    exact ⟨s, hs, _, package, rfl⟩

/-- A focused diagram and the class diagram of the same catalog and resolver agree on the members
that are declared in the package of the seed. The focused diagram shows the edges that lead from
such a member to another member, and once the rounds have closed these are all its edges in the
class diagram. -/
theorem focused_edges_of_package (c : Catalog) (r : Resolver) (seed x : String) (rounds : Nat)
    (declared : c.contains x = true) (same : c.packageOf? x = c.packageOf? seed)
    (member : x ∈ (expand (c.focusRelations r seed) seed rounds).members) :
  let ball := expand (c.focusRelations r seed) seed rounds
  let focused := ball.view (some c)
  let whole := c.classView r
  (∀ e, e.source = x → (e ∈ focused.edges ↔ e ∈ whole.edges ∧ e.target ∈ ball.members))
    ∧ (ball.stabilized = true → ∀ e ∈ whole.edges, e.source = x → e ∈ focused.edges)
  := by
  intro ball focused whole
  have shown (e : Edge) (source : e.source = x) :
      e ∈ focused.edges ↔ e ∈ whole.edges ∧ e.target ∈ ball.members := by
    subst source
    rw [mem_edges_classView_of_package declared same]
    apply mem_edges_expand.trans
    apply and_congr_right
    intro _
    apply and_iff_right member
  use shown
  intro stable e he source
  apply (shown e source).mpr ⟨he, _⟩
  subst source
  obtain ⟨s, hs, rfl⟩ := (mem_edges_classView_of_package declared same).mp he
  apply Focus.closed_of_stabilized stable member (step_edgeIn hs)

/-- A parent in the package of the seed, with an interface in another package. -/
theorem focused_edges_of_zoo :
  let units : List (ParsedUnit × Path) :=
    [(⟨some "zoo", [⟨"Dog", .classType, ["Animal"], []⟩, ⟨"Animal", .classType, [], ["Living"]⟩]⟩,
      ⟨"zoo/Dog.java"⟩),
     (⟨some "park", [⟨"Living", .interface, [], []⟩]⟩, ⟨"park/Living.java"⟩)]
  let c := build units
  let r := c.resolver
  let ball := expand (c.focusRelations r "zoo.Dog") "zoo.Dog" 3
  c.contains "zoo.Animal" = true
    ∧ c.packageOf? "zoo.Animal" = c.packageOf? "zoo.Dog"
    ∧ "zoo.Animal" ∈ ball.members
    ∧ ball.stabilized = true
    ∧ (∀ e, e.source = "zoo.Animal" → (e ∈ (ball.view (some c)).edges
        ↔ e ∈ (c.classView r).edges ∧ e.target ∈ ball.members))
    ∧ ∀ e ∈ (c.classView r).edges, e.source = "zoo.Animal" → e ∈ (ball.view (some c)).edges
  := by
  intro units c r ball
  have declared : c.contains "zoo.Animal" = true := by decide
  have same : c.packageOf? "zoo.Animal" = c.packageOf? "zoo.Dog" := by decide
  have member : "zoo.Animal" ∈ ball.members := by decide +kernel
  have stable : ball.stabilized = true := by decide +kernel
  obtain ⟨shown, all⟩ := focused_edges_of_package c r "zoo.Dog" "zoo.Animal" 3 declared same member
  exact ⟨declared, same, member, stable, shown, all stable⟩

end SourceAtlas.Catalog
