import SourceAtlas.Proofs.Focus.Rounds
import SourceAtlas.Proofs.View.Reach

/-!
# Neighbourhoods in a graph

The relations of a graph carry no written names, so each of them leads from either of its ends to
the other one and nowhere else (`step_focusRelations`). A chain can therefore be walked backwards,
so that being in a neighbourhood is mutual (`Within.symm`). Rounds that have closed have found the
weakly connected component of the seed (`mem_expand_iff_connected`), and with more rounds than nodes
they do close (`Coherent.stabilized_expand`).
-/

namespace SourceAtlas

namespace Focus

variable {relations : List FocusRelation} {x y z : String} {k n : Nat}

/-! ### Chains backwards -/

theorem Chain.concat (h : Chain relations k x y) (last : Step relations y z) :
  Chain relations (k + 1) x z
  := by
  induction h with
  | start x => apply Chain.step last (.start z)
  | step first _ ih => apply Chain.step first (ih last)

section Symmetry

variable (back : ∀ {x z}, Step relations x z → Step relations z x)
include back

theorem Chain.reverse (h : Chain relations k x y) :
  Chain relations k y x
  := by
  induction h with
  | start x => apply Chain.start
  | step first _ ih => apply ih.concat (back first)

/-- Where every step can be taken back, being near is mutual. -/
theorem Within.symm (h : Within relations n x y) :
  Within relations n y x
  := by
  obtain ⟨k, hk, chain⟩ := h
  exact ⟨k, hk, chain.reverse back⟩

end Symmetry

end Focus

namespace Graph

open Focus

variable {g : Graph} {a x y : String} {rounds : Nat}

/-! ### Relations of a graph -/

/-- Steps follow the edges of the graph in both directions. -/
theorem step_focusRelations :
  Step g.focusRelations x y ↔ g.Joined x y ∨ g.Joined y x
  := by
  simp only [Step, focusRelations, List.mem_map, exists_exists_and_eq_and, FocusRelation.Leads,
    reduceCtorEq, false_and, exists_false, or_false, mem_edges, joined_iff]
  constructor
  · rintro ⟨e, he, ⟨source, target⟩ | ⟨source, target⟩⟩
    · exact .inl ⟨e, he, source, target.symm⟩
    · exact .inr ⟨e, he, source.symm, target⟩
  · rintro (⟨e, he, source, target⟩ | ⟨e, he, source, target⟩)
    · exact ⟨e, he, .inl ⟨source, target.symm⟩⟩
    · exact ⟨e, he, .inr ⟨source.symm, target⟩⟩

theorem step_symm (h : Step g.focusRelations x y) :
  Step g.focusRelations y x
  := step_focusRelations.mpr (step_focusRelations.mp h).symm

theorem mem_edgesWithin_focusRelations {members : List String} {e : Edge} :
  e ∈ edgesWithin g.focusRelations members
    ↔ e ∈ g.links ∧ e.source ∈ members ∧ e.target ∈ members
  := by
  rw [focusRelations, mem_edgesWithin_map, ← mem_edges]
  apply and_congr_left'
  constructor
  · rintro ⟨e, he, rfl⟩
    apply he
  · intro he
    exact ⟨e, he, rfl⟩

/-! ### Components -/

/-- The identities lie in the same weakly connected component: edges lead from one to the other
when it does not matter in which direction they are followed. -/
def Connected (g : Graph) : String → String → Prop :=
  Relation.EqvGen g.Joined

theorem connected_of_chain {k : Nat} (h : Chain g.focusRelations k x y) :
  g.Connected x y
  := by
  induction h with
  | start x => apply Relation.EqvGen.refl
  | step first _ ih =>
    apply Relation.EqvGen.trans _ _ _ _ ih
    obtain forwards | backwards := step_focusRelations.mp first
    · apply Relation.EqvGen.rel _ _ forwards
    · apply Relation.EqvGen.symm _ _ (.rel _ _ backwards)

/-- Members that no step leaves are made up of whole components. Both directions are shown at once,
because the rule for symmetry turns them around. -/
theorem Connected.mem_iff {members : List String}
    (closed : ∀ {x z}, x ∈ members → Step g.focusRelations x z → z ∈ members)
    (h : g.Connected x y) :
  x ∈ members ↔ y ∈ members
  := by
  induction h with
  | rel x y joined =>
    constructor
    · intro hx
      apply closed hx (step_focusRelations.mpr (.inl joined))
    · intro hy
      apply closed hy (step_focusRelations.mpr (.inr joined))
  | refl x => rfl
  | symm x y _ ih => apply ih.symm
  | trans x y z _ _ ih ih' => apply ih.trans ih'

/-- Closed rounds have found the component of their seed. -/
theorem mem_expand_iff_connected (stable : (expand g.focusRelations a rounds).stabilized = true) :
  x ∈ (expand g.focusRelations a rounds).members ↔ g.Connected a x
  := by
  constructor
  · intro hx
    obtain ⟨k, -, chain⟩ := mem_expand.mp hx
    apply connected_of_chain chain
  · intro connected
    apply (connected.mem_iff (closed_of_stabilized stable)).mp
    apply mem_expand.mpr (.refl _ rounds a)

theorem Reachable.connected (h : g.Reachable .dependencies x y) :
  g.Connected x y
  := Relation.EqvGen.reflTransGen_le_eqvGen g.Joined x y h

/-- No edge leads out of a component. -/
theorem connected_source_iff_target {e : Edge} (he : e ∈ g.links) :
  g.Connected a e.source ↔ g.Connected a e.target
  := by
  have joined : g.Connected e.source e.target := .rel _ _ ⟨e.kind, he⟩
  constructor
  · intro source
    apply Relation.EqvGen.trans _ _ _ source joined
  · intro target
    apply Relation.EqvGen.trans _ _ _ target (.symm _ _ joined)

/-- The relations of a graph end at its nodes. -/
theorem Coherent.mem_nodes_of_mem_ends (h : g.Coherent) (hx : x ∈ ends g.focusRelations) :
  x ∈ g.nodes
  := by
  obtain ⟨r, hr, hx⟩ := List.mem_flatMap.mp (Ordered.mem_ofList.mp hx)
  obtain ⟨e, he, rfl⟩ := List.mem_map.mp hr
  obtain ⟨source, target⟩ := h.ends_mem e (mem_edges.mp he)
  obtain rfl | rfl : x = e.source ∨ x = e.target := by simpa using hx
  · apply source
  · apply target

/-- With more rounds than nodes, the rounds close. -/
theorem Coherent.stabilized_expand (h : g.Coherent) (known : a ∈ g.nodes)
    (enough : g.nodes.length < rounds) :
  (expand g.focusRelations a rounds).stabilized = true
  := by
  apply stabilized_of_lt
  have fewer : (outside g.focusRelations [a]).length < g.nodes.length := by
    apply length_lt_of_fresh _ _ known
    · intro hx
      exact (mem_outside.mp hx).2 List.mem_cons_self
    · apply (Ordered.increasing_ofList _).nodup.filter
    · intro x hx
      apply h.mem_nodes_of_mem_ends (mem_outside.mp hx).1
  omega

/-- Neighbourhoods in a graph are mutual: within a number of rounds, one identity finds another
exactly if the other finds it. When the rounds around an identity have closed, the members are its
weakly connected component, the edges are those of the graph with an end in the component, and all
nodes and edges of what the identity reaches along dependencies are among them. Around a node the
rounds close if there are more of them than nodes. -/
theorem expand_finds_component (calls : List Call) (a b : String) (rounds : Nat) :
  let g := build calls
  let ball := expand g.focusRelations a rounds
  let reached := g.reachableView a
  (b ∈ ball.members ↔ a ∈ (expand g.focusRelations b rounds).members)
    ∧ (ball.stabilized = true →
        (∀ x, x ∈ ball.members ↔ g.Connected a x)
          ∧ (∀ e, e ∈ ball.edges
              ↔ e ∈ g.edges ∧ (g.Connected a e.source ∨ g.Connected a e.target))
          ∧ (∀ n ∈ reached.nodes, n.id ∈ ball.members)
          ∧ ∀ e ∈ reached.edges, ∃ kind, ⟨e.source, e.target, kind⟩ ∈ ball.edges)
    ∧ (a ∈ g.nodes → g.nodes.length < rounds → ball.stabilized = true)
  := by
  intro g ball reached
  and_intros
  · rw [mem_expand, mem_expand]
    constructor
    · apply Within.symm step_symm
    · apply Within.symm step_symm
  · intro stable
    have members (x : String) : x ∈ ball.members ↔ g.Connected a x :=
      mem_expand_iff_connected stable
    have edges (e : Edge) : e ∈ ball.edges
        ↔ e ∈ g.links ∧ g.Connected a e.source ∧ g.Connected a e.target := by
      rw [← members, ← members]
      apply mem_edgesWithin_focusRelations
    and_intros
    · apply members
    · intro e
      rw [edges, mem_edges]
      apply and_congr_right
      intro he
      rw [connected_source_iff_target he, and_self, or_self]
    · intro n hn
      apply (members n.id).mpr
      apply Reachable.connected
      apply Reach.mem_ids_reachableView.mp (List.mem_map_of_mem hn)
    · intro e he
      obtain ⟨-, ⟨kind, joined⟩, reachable⟩ := Reach.mem_edges_reachableView.mp he
      have source : g.Connected a e.source := reachable.connected
      use kind
      apply (edges _).mpr
      exact ⟨joined, source, (connected_source_iff_target joined).mp source⟩
  · apply (coherent_build calls).stabilized_expand

end Graph

end SourceAtlas
