import SourceAtlas.Analysis
import SourceAtlas.Proofs.Graph
import SourceAtlas.Proofs.Lists

/-!
# The graph of mentions

`Graph.ofReferences` builds its graph by calls: first it adds the units as nodes, then all
links that the units ask for, and links that it has already are refused. Hence one unit is
joined to another exactly if it mentions the other's file stem (`joined_ofReferences`). With
given texts, the last text of an identity is the one that counts, and without repeated
identities the order of the units does not matter.
-/

namespace SourceAtlas.Graph

open Ordered (Increasing)

variable {units : List SourceUnit} {references : SourceUnit → List String}

/-- The calls by which the graph of given references is built. -/
def referenceCalls (units : List SourceUnit) (references : SourceUnit → List String) :
    List Call :=
  units.map (fun u => .node u.identity)
    ++ (units.flatMap fun u => linksOf units u (references u)).map .edge

theorem ofReferences_eq_build (units : List SourceUnit)
    (references : SourceUnit → List String) :
  ofReferences units references = build (referenceCalls units references)
  := by
  simp only [ofReferences, ofUnits, build, referenceCalls, List.foldl_append, List.foldl_map]
  rfl

theorem coherent_ofReferences (units : List SourceUnit)
    (references : SourceUnit → List String) :
  (ofReferences units references).Coherent
  := by
  rw [ofReferences_eq_build]
  apply coherent_build

/-! ### Nodes -/

theorem mem_nodes_foldl_addNode (units : List SourceUnit) (g : Graph) (x : String) :
  x ∈ (units.foldl (fun g u => (g.addNode u.identity).2) g).nodes
    ↔ x ∈ g.nodes ∨ ∃ u ∈ units, u.identity = x
  := by
  induction units generalizing g with
  | nil => simp
  | cons u units ih =>
    rw [List.foldl_cons, ih, mem_nodes_addNode, or_assoc]
    simp [eq_comm]

theorem links_foldl_addNode (units : List SourceUnit) (g : Graph) :
  (units.foldl (fun g u => (g.addNode u.identity).2) g).links = g.links
  := by
  induction units generalizing g with
  | nil => rfl
  | cons u units ih => rw [List.foldl_cons, ih, links_addNode]

theorem mem_nodes_ofUnits {x : String} :
  x ∈ (ofUnits units).nodes ↔ ∃ u ∈ units, u.identity = x
  := by
  rw [ofUnits, mem_nodes_foldl_addNode]
  simp [empty]

theorem links_ofUnits (units : List SourceUnit) :
  (ofUnits units).links = []
  := links_foldl_addNode units empty

/-! ### Links -/

theorem nodes_foldl_addEdge (es : List Edge) (g : Graph) :
  (es.foldl (fun g e => (g.addEdge e).2) g).nodes = g.nodes
  := by
  induction es generalizing g with
  | nil => rfl
  | cons e es ih => rw [List.foldl_cons, ih, nodes_addEdge]

theorem joined_foldl_addEdge (es : List Edge) (g : Graph) (x y : String) :
  (es.foldl (fun g e => (g.addEdge e).2) g).Joined x y
    ↔ g.Joined x y ∨ (x ≠ y ∧ x ∈ g.nodes ∧ y ∈ g.nodes
        ∧ ∃ e ∈ es, e.source = x ∧ e.target = y)
  := by
  induction es generalizing g with
  | nil => simp
  | cons e es ih =>
    rw [List.foldl_cons, ih, joined_addEdge, nodes_addEdge]
    constructor
    · rintro ((old | ⟨source, target, ne, hx, hy⟩) | ⟨ne, hx, hy, e', he', ends⟩)
      · apply Or.inl old
      · exact .inr ⟨ne, hx, hy, e, List.mem_cons_self, source, target⟩
      · exact .inr ⟨ne, hx, hy, e', List.mem_cons_of_mem e he', ends⟩
    · rintro (old | ⟨ne, hx, hy, e', he', source, target⟩)
      · exact .inl (.inl old)
      · obtain rfl | he' := List.mem_cons.mp he'
        · exact .inl (.inr ⟨source, target, ne, hx, hy⟩)
        · exact .inr ⟨ne, hx, hy, e', he', source, target⟩

theorem mem_links_foldl_addEdge {es : List Edge} {g : Graph} {e : Edge}
    (h : e ∈ (es.foldl (fun g e => (g.addEdge e).2) g).links) :
  e ∈ g.links ∨ e ∈ es
  := by
  induction es generalizing g with
  | nil => apply Or.inl h
  | cons e' es ih =>
    obtain old | new := ih h
    · obtain old | rfl := mem_links_addEdge old
      · apply Or.inl old
      · apply Or.inr List.mem_cons_self
    · apply Or.inr (List.mem_cons_of_mem e' new)

theorem mem_linksOf {u : SourceUnit} {symbols : List String} {e : Edge} :
  e ∈ linksOf units u symbols
    ↔ ∃ v ∈ units, v.simpleName ∈ symbols ∧ v.identity ≠ u.identity
      ∧ e = ⟨u.identity, v.identity, .referencing⟩
  := by
  simp only [linksOf, List.mem_flatMap, List.mem_map, List.mem_filter, Bool.and_eq_true,
    beq_iff_eq, bne_iff_ne]
  constructor
  · rintro ⟨_, hs, v, ⟨hv, rfl, ne⟩, rfl⟩
    exact ⟨v, hv, hs, ne, rfl⟩
  · rintro ⟨v, hv, hs, ne, rfl⟩
    exact ⟨_, hs, v, ⟨hv, rfl, ne⟩, rfl⟩

theorem mem_nodes_ofReferences {x : String} :
  x ∈ (ofReferences units references).nodes ↔ ∃ u ∈ units, u.identity = x
  := by
  rw [ofReferences, nodes_foldl_addEdge, mem_nodes_ofUnits]

/-- Two units are joined if the first mentions the file stem of the second. -/
theorem joined_ofReferences {x y : String} :
  (ofReferences units references).Joined x y
    ↔ x ≠ y ∧ (∃ v ∈ units, v.identity = y)
      ∧ ∃ u ∈ units, u.identity = x ∧ simpleName y ∈ references u
  := by
  rw [ofReferences, joined_foldl_addEdge]
  simp only [Joined, links_ofUnits, List.not_mem_nil, exists_false, false_or,
    mem_nodes_ofUnits, List.mem_flatMap, mem_linksOf]
  constructor
  · rintro ⟨ne, -, known, _, ⟨u, hu, v, hv, mentions, -, rfl⟩, rfl, rfl⟩
    exact ⟨ne, known, u, hu, rfl, mentions⟩
  · rintro ⟨ne, ⟨v, hv, rfl⟩, u, hu, rfl, mentions⟩
    exact ⟨ne, ⟨u, hu, rfl⟩, ⟨v, hv, rfl⟩, _, ⟨u, hu, v, hv, mentions, ne.symm, rfl⟩, rfl, rfl⟩

theorem kind_of_mem_ofReferences {e : Edge}
    (h : e ∈ (ofReferences units references).links) :
  e.kind = .referencing
  := by
  obtain old | new := mem_links_foldl_addEdge h
  · simp [links_ofUnits] at old
  · obtain ⟨u, -, hu⟩ := List.mem_flatMap.mp new
    obtain ⟨v, -, -, -, rfl⟩ := mem_linksOf.mp hu
    rfl

theorem mem_links_ofReferences {e : Edge} :
  e ∈ (ofReferences units references).links
    ↔ e.kind = .referencing ∧ e.source ≠ e.target ∧ (∃ v ∈ units, v.identity = e.target)
      ∧ ∃ u ∈ units, u.identity = e.source ∧ simpleName e.target ∈ references u
  := by
  rw [← joined_ofReferences]
  constructor
  · intro he
    exact ⟨kind_of_mem_ofReferences he, e.kind, he⟩
  · rintro ⟨kind, kind', he⟩
    obtain rfl : kind' = e.kind := (kind_of_mem_ofReferences he).trans kind.symm
    apply he

/-! ### Texts -/

/-- Of the texts that are given for the identity, this one comes last. -/
def LastText (sources : List (SourceUnit × String)) (x text : String) : Prop :=
  ∃ before u after, sources = before ++ (u, text) :: after ∧ u.identity = x
    ∧ ∀ s ∈ after, s.1.identity ≠ x

theorem find?_reverse_eq_some {sources : List (SourceUnit × String)} {x text : String} :
  (∃ u, sources.reverse.find? (·.1.identity == x) = some (u, text))
    ↔ LastText sources x text
  := by
  simp only [find?_reverse_eq_some_iff, beq_iff_eq, beq_eq_false_iff_ne]
  constructor
  · rintro ⟨u, before, after, split, same, later⟩
    exact ⟨before, u, after, split, same, later⟩
  · rintro ⟨before, u, after, split, same, later⟩
    exact ⟨u, before, after, split, same, later⟩

/-- What a unit refers to in the graph of given texts. -/
theorem mem_references_ofSources {f : ReferenceFilter}
    {sources : List (SourceUnit × String)} {x symbol : String} :
  symbol ∈ (match sources.reverse.find? (·.1.identity == x) with
      | some (_, text) => f.references text
      | none => [])
    ↔ ∃ text, LastText sources x text ∧ symbol ∈ f.references text
  := by
  simp only [← find?_reverse_eq_some]
  cases found : sources.reverse.find? (·.1.identity == x) with
  | none => simp
  | some s =>
    obtain ⟨u, text⟩ := s
    simp

theorem LastText.exists_mem {sources : List (SourceUnit × String)} {x text : String}
    (h : LastText sources x text) :
  ∃ u, (u, text) ∈ sources ∧ u.identity = x
  := by
  obtain ⟨before, u, after, rfl, same, -⟩ := h
  exact ⟨u, List.mem_append_right _ List.mem_cons_self, same⟩

/-- Without repeated identities, every text is the last one of its identity. -/
theorem lastText_of_mem {sources : List (SourceUnit × String)}
    (distinct : (sources.map (·.1.identity)).Nodup) {u : SourceUnit} {text : String}
    (h : (u, text) ∈ sources) :
  LastText sources u.identity text
  := by
  obtain ⟨before, after, rfl⟩ := List.append_of_mem h
  refine ⟨before, u, after, rfl, rfl, ?_⟩
  intro s hs same
  rw [List.map_append, List.map_cons] at distinct
  have single := (List.nodup_cons.mp (List.nodup_append.mp distinct).2.1).1
  apply single
  rw [← same]
  apply List.mem_map_of_mem hs

/-! ### The graph of given texts -/

section Sources

variable {f : ReferenceFilter} {sources sources' : List (SourceUnit × String)}

theorem mem_nodes_ofSources {x : String} :
  x ∈ (ofSources f sources).nodes ↔ ∃ s ∈ sources, s.1.identity = x
  := by
  rw [ofSources, mem_nodes_ofReferences]
  simp

theorem mem_links_ofSources {e : Edge} :
  e ∈ (ofSources f sources).links
    ↔ e.kind = .referencing ∧ (∃ s ∈ sources, s.1.identity = e.source)
      ∧ (∃ s ∈ sources, s.1.identity = e.target) ∧ e.source ≠ e.target
      ∧ ∃ text, LastText sources e.source text ∧ simpleName e.target ∈ f.references text
  := by
  rw [ofSources, mem_links_ofReferences]
  simp only [List.mem_map]
  constructor
  · rintro ⟨kind, ne, ⟨_, ⟨s, hs, rfl⟩, target⟩, _, ⟨s', hs', rfl⟩, source, mentions⟩
    rw [source] at mentions
    exact ⟨kind, ⟨s', hs', source⟩, ⟨s, hs, target⟩, ne, mem_references_ofSources.mp mentions⟩
  · rintro ⟨kind, ⟨s', hs', source⟩, ⟨s, hs, target⟩, ne, mentions⟩
    rw [← source] at mentions
    exact ⟨kind, ne, ⟨_, ⟨s, hs, rfl⟩, target⟩, _, ⟨s', hs', rfl⟩, source,
      mem_references_ofSources.mpr mentions⟩

theorem coherent_ofSources (f : ReferenceFilter) (sources : List (SourceUnit × String)) :
  (ofSources f sources).Coherent
  := coherent_ofReferences _ _

theorem lastText_perm (distinct : (sources.map (·.1.identity)).Nodup)
    (perm : sources'.Perm sources) {x text : String} :
  LastText sources' x text ↔ LastText sources x text
  := by
  have distinct' := (perm.map (·.1.identity)).nodup_iff.mpr distinct
  constructor
  · intro h
    obtain ⟨u, hu, rfl⟩ := h.exists_mem
    apply lastText_of_mem distinct (perm.mem_iff.mp hu)
  · intro h
    obtain ⟨u, hu, rfl⟩ := h.exists_mem
    apply lastText_of_mem distinct' (perm.mem_iff.mpr hu)

end Sources

/-- The graph of given texts has the identities of the units as its nodes. It joins a unit to
another, once and by a reference, exactly if the last text of the first mentions the file stem
of the second. Without repeated identities, nothing that is read off the graph depends on the
order of the texts. -/
theorem ofSources_joins_mentions (f : ReferenceFilter)
    (sources : List (SourceUnit × String)) :
  let g := ofSources f sources
  (∀ x, x ∈ g.identities ↔ ∃ s ∈ sources, s.1.identity = x)
    ∧ Increasing g.identities
    ∧ (∀ e, e ∈ g.edges
        ↔ e.kind = .referencing ∧ (∃ s ∈ sources, s.1.identity = e.source)
          ∧ (∃ s ∈ sources, s.1.identity = e.target) ∧ e.source ≠ e.target
          ∧ ∃ text, LastText sources e.source text ∧ simpleName e.target ∈ f.references text)
    ∧ g.links.Nodup
    ∧ g.edges.Perm g.links
    ∧ ∀ sources', (sources.map (·.1.identity)).Nodup → sources'.Perm sources →
        (ofSources f sources').identities = g.identities
          ∧ (ofSources f sources').edges = g.edges
          ∧ (ofSources f sources').adjacency = g.adjacency
          ∧ (ofSources f sources').stats = g.stats
  := by
  intro g
  have coherent := coherent_ofSources f sources
  and_intros
  · intro x
    rw [mem_identities, mem_nodes_ofSources]
  · apply Ordered.increasing_ofList
  · intro e
    rw [mem_edges, mem_links_ofSources]
  · apply coherent.links_nodup
  · apply Ordered.ofList_perm coherent.links_nodup
  · intro sources' distinct perm
    have nodes : ∀ x, x ∈ (ofSources f sources').nodes ↔ x ∈ g.nodes := by
      intro x
      rw [mem_nodes_ofSources, mem_nodes_ofSources]
      simp only [perm.mem_iff]
    have links : ∀ e, e ∈ (ofSources f sources').links ↔ e ∈ g.links := by
      intro e
      rw [mem_links_ofSources, mem_links_ofSources]
      simp only [perm.mem_iff, lastText_perm distinct perm]
    and_intros
    · apply identities_congr nodes
    · apply edges_congr links
    · apply adjacency_congr nodes links
    · apply Coherent.stats_congr nodes links (coherent_ofSources f sources') coherent

end SourceAtlas.Graph
