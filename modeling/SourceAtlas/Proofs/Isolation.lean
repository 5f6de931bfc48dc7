import SourceAtlas.Proofs.Catalog
import SourceAtlas.Proofs.Mentions

/-!
# Units that cannot be read or parsed

Both analyses go on when a unit fails. The catalog passes over the unit as if it were not in the
list (`ofUnits_eq_build`), wherever it stands and however many others fail
(`ofUnits_eq_of_padded`). The reference graph keeps the unit as a node without outgoing edges: its
edges are those that it would have if all units could be read, less those that start at an
unreadable unit (`mem_links_ofFiles_iff`).
-/

namespace SourceAtlas

/-! ### Insertions -/

section Padded

variable {α β : Type} {P : α → Prop} {xs ys : List α}

/-- The second list comes from the first one by insertions of members with the property. -/
inductive Padded (P : α → Prop) : List α → List α → Prop where
  | nil : Padded P [] []
  | keep {xs ys : List α} (x : α) : Padded P xs ys → Padded P (x :: xs) (x :: ys)
  | pad {xs ys : List α} {x : α} : P x → Padded P xs ys → Padded P xs (x :: ys)

/-- A run does not notice insertions that every step passes over. -/
theorem Padded.foldl_eq {step : β → α → β} (passed : ∀ b x, P x → step b x = b)
    (h : Padded P xs ys) (b : β) :
  ys.foldl step b = xs.foldl step b
  := by
  induction h generalizing b with
  | nil => rfl
  | keep x _ ih => apply ih
  | pad hx _ ih => rw [List.foldl_cons, passed b _ hx, ih]

end Padded

variable {read : Path → Except Error String}

/-! ### The catalog -/

namespace Catalog

variable {parse : String → Except Error ParsedUnit} {u : SourceUnit} {parsed : ParsedUnit}

/-- The file of the unit can be read, and its text can be parsed. -/
def Parses (read : Path → Except Error String) (parse : String → Except Error ParsedUnit)
    (u : SourceUnit) (parsed : ParsedUnit) : Prop :=
  ∃ text, read u.path = .ok text ∧ parse text = .ok parsed

/-- What a unit gives to a catalog, if it gives anything. -/
def parsed? (read : Path → Except Error String) (parse : String → Except Error ParsedUnit)
    (u : SourceUnit) : Option (ParsedUnit × Path) :=
  match (read u.path).bind parse with
  | .ok parsed => some (parsed, u.path)
  | .error _ => none

theorem bind_eq_ok_iff :
  (read u.path).bind parse = .ok parsed ↔ Parses read parse u parsed
  := by
  rw [Parses]
  cases read u.path with
  | ok text => simp [Except.bind]
  | error e => simp [Except.bind]

theorem parsed?_eq_some_iff {origin : Path} :
  parsed? read parse u = some (parsed, origin) ↔ Parses read parse u parsed ∧ origin = u.path
  := by
  rw [← bind_eq_ok_iff, parsed?]
  split
  · rename_i result found
    simp [found, eq_comm]
  · rename_i failed
    simp [failed]

theorem parsed?_eq_none_iff :
  parsed? read parse u = none ↔ ∀ parsed, ¬ Parses read parse u parsed
  := by
  simp only [← bind_eq_ok_iff, parsed?]
  split
  · rename_i found
    simp [found]
  · rename_i failed
    simp [failed]

theorem tryUnit_of_parses (h : Parses read parse u parsed) (c : Catalog) :
  c.tryUnit read parse u = c.addUnit parsed u.path
  := by
  rw [tryUnit, bind_eq_ok_iff.mpr h]

theorem tryUnit_of_fails (h : ∀ parsed, ¬ Parses read parse u parsed) (c : Catalog) :
  c.tryUnit read parse u = c
  := by
  rw [tryUnit]
  split
  · rename_i parsed found
    exact absurd (bind_eq_ok_iff.mp found) (h parsed)
  · rfl

/-- A run over some units adds those that can be read and parsed. -/
theorem foldl_tryUnit (units : List SourceUnit) (c : Catalog) :
  units.foldl (tryUnit read parse) c
    = (units.filterMap (parsed? read parse)).foldl (fun c u => c.addUnit u.1 u.2) c
  := by
  induction units generalizing c with
  | nil => rfl
  | cons u units ih =>
    cases given : parsed? read parse u with
    | none =>
      rw [List.foldl_cons, tryUnit_of_fails (parsed?_eq_none_iff.mp given),
        List.filterMap_cons_none given, ih]
    | some result =>
      obtain ⟨parses, origin⟩ := parsed?_eq_some_iff.mp given
      rw [List.foldl_cons, tryUnit_of_parses parses, List.filterMap_cons_some given,
        List.foldl_cons, ih, origin]

theorem ofUnits_eq_build (read : Path → Except Error String)
    (parse : String → Except Error ParsedUnit) (units : List SourceUnit) :
  ofUnits read parse units = build (units.filterMap (parsed? read parse))
  := foldl_tryUnit units empty

theorem ofUnits_eq_of_padded {units units' : List SourceUnit}
    (h : Padded (fun u => ∀ parsed, ¬ Parses read parse u parsed) units units') :
  ofUnits read parse units' = ofUnits read parse units
  := h.foldl_eq (fun c _ fails => tryUnit_of_fails fails c) empty

end Catalog

/-! ### The reference graph -/

theorem ReferenceFilter.mem_referencesIn {f : ReferenceFilter} {result : Except Error String}
    {symbol : String} :
  symbol ∈ f.referencesIn result ↔ ∃ text, result = .ok text ∧ symbol ∈ f.references text
  := by
  cases result with
  | ok text => simp [referencesIn]
  | error e => simp [referencesIn]

namespace Graph

variable {f : ReferenceFilter} {units : List SourceUnit}

theorem nodes_ofReferences (units : List SourceUnit) (references : SourceUnit → List String) :
  (ofReferences units references).nodes = (ofUnits units).nodes
  := nodes_foldl_addEdge _ _

/-- Some unit with the identity can be read. -/
def Readable (read : Path → Except Error String) (units : List SourceUnit) (x : String) : Prop :=
  ∃ u ∈ units, u.identity = x ∧ ∃ text, read u.path = .ok text

theorem mem_links_ofFiles {e : Edge} :
  e ∈ (ofFiles read f units).links
    ↔ e.kind = .referencing ∧ e.source ≠ e.target ∧ (∃ v ∈ units, v.identity = e.target)
      ∧ ∃ u ∈ units, u.identity = e.source
        ∧ ∃ text, read u.path = .ok text ∧ simpleName e.target ∈ f.references text
  := by
  rw [ofFiles, mem_links_ofReferences]
  simp only [ReferenceFilter.mem_referencesIn]

theorem dependencies_ofFiles_of_unreadable (distinct : (units.map SourceUnit.identity).Nodup)
    {u : SourceUnit} (hu : u ∈ units) {reason : Error} (unreadable : read u.path = .error reason) :
  (ofFiles read f units).dependencies u.identity = []
  := by
  apply List.eq_nil_iff_forall_not_mem.mpr
  intro y hy
  obtain ⟨kind, he⟩ := mem_dependencies.mp hy
  obtain ⟨-, -, -, u', hu', same, text, found, -⟩ := mem_links_ofFiles.mp he
  obtain rfl : u' = u := List.inj_on_of_nodup_map distinct hu' hu same
  rw [found] at unreadable
  cases unreadable

section Comparison

variable {texts : Path → String} (distinct : (units.map SourceUnit.identity).Nodup)
  (agree : ∀ u ∈ units, ∀ text, read u.path = .ok text → texts u.path = text)

include distinct agree

/-- What is lost with unreadable units are the edges that start at them. -/
theorem mem_links_ofFiles_iff {e : Edge} :
  e ∈ (ofFiles read f units).links
    ↔ e ∈ (ofFiles (fun p => .ok (texts p)) f units).links ∧ Readable read units e.source
  := by
  rw [mem_links_ofFiles, mem_links_ofFiles]
  constructor
  · rintro ⟨kind, ne, target, u, hu, source, text, found, mentions⟩
    obtain rfl := agree u hu text found
    exact ⟨⟨kind, ne, target, u, hu, source, _, rfl, mentions⟩, u, hu, source, _, found⟩
  · rintro ⟨⟨kind, ne, target, u, hu, source, _, ⟨⟩, mentions⟩, u', hu', source', text, found⟩
    obtain rfl : u' = u :=
      List.inj_on_of_nodup_map distinct hu' hu (source'.trans source.symm)
    obtain rfl := agree u' hu text found
    exact ⟨kind, ne, target, u', hu, source, _, found, mentions⟩

theorem joined_ofFiles_iff {x y : String} :
  (ofFiles read f units).Joined x y
    ↔ (ofFiles (fun p => .ok (texts p)) f units).Joined x y ∧ Readable read units x
  := by
  simp only [Joined, mem_links_ofFiles_iff distinct agree, exists_and_right]

theorem dependencies_ofFiles_of_readable {x : String} (readable : Readable read units x) :
  (ofFiles read f units).dependencies x
    = (ofFiles (fun p => .ok (texts p)) f units).dependencies x
  := by
  apply (increasing_neighbours _ .dependencies x).ext (increasing_neighbours _ .dependencies x)
  intro y
  rw [mem_neighbours, mem_neighbours]
  apply (joined_ofFiles_iff distinct agree).trans
  apply and_iff_left readable

end Comparison

end Graph

/-- Failures of single units stay isolated. The catalog of some units is the one that collects, in
order, what the units give that can be read and parsed, and insertions of other units anywhere in
the list do not change it. The reference graph has the identities of all units as its nodes and, once
for each pair of units of which a readable one mentions the other, an edge between the two. With
distinct identities these are the edges that the graph has if all units can be read, less those that
start at an unreadable unit: such a unit has no outgoing edges, it is still pointed at, and a
readable unit keeps all edges of its own. -/
theorem failures_stay_isolated (read : Path → Except Error String)
    (parse : String → Except Error ParsedUnit) (f : ReferenceFilter) (units : List SourceUnit) :
  Catalog.ofUnits read parse units = Catalog.build (units.filterMap (Catalog.parsed? read parse))
    ∧ (∀ u parsed origin, Catalog.parsed? read parse u = some (parsed, origin)
        ↔ Catalog.Parses read parse u parsed ∧ origin = u.path)
    ∧ (∀ units', Padded (fun u => ∀ parsed, ¬ Catalog.Parses read parse u parsed) units units' →
        Catalog.ofUnits read parse units' = Catalog.ofUnits read parse units)
    ∧ (∀ x, x ∈ (Graph.ofFiles read f units).identities ↔ ∃ u ∈ units, u.identity = x)
    ∧ (∀ e, e ∈ (Graph.ofFiles read f units).edges
        ↔ e.kind = .referencing ∧ e.source ≠ e.target ∧ (∃ v ∈ units, v.identity = e.target)
          ∧ ∃ u ∈ units, u.identity = e.source
            ∧ ∃ text, read u.path = .ok text ∧ simpleName e.target ∈ f.references text)
    ∧ ∀ texts : Path → String, (units.map SourceUnit.identity).Nodup →
        (∀ u ∈ units, ∀ text, read u.path = .ok text → texts u.path = text) →
        let g := Graph.ofFiles read f units
        let whole := Graph.ofFiles (fun p => .ok (texts p)) f units
        g.nodes = whole.nodes
          ∧ (∀ e, e ∈ g.edges ↔ e ∈ whole.edges
              ∧ ∃ u ∈ units, u.identity = e.source ∧ ∃ text, read u.path = .ok text)
          ∧ ∀ u ∈ units,
              (∀ reason, read u.path = .error reason → g.dependencies u.identity = [])
              ∧ ∀ text, read u.path = .ok text →
                  g.dependencies u.identity = whole.dependencies u.identity
  := by
  and_intros
  · apply Catalog.ofUnits_eq_build
  · intro u parsed origin
    apply Catalog.parsed?_eq_some_iff
  · intro units' padded
    apply Catalog.ofUnits_eq_of_padded padded
  · intro x
    rw [Graph.mem_identities, Graph.ofFiles, Graph.mem_nodes_ofReferences]
  · intro e
    rw [Graph.mem_edges, Graph.mem_links_ofFiles]
  · intro texts distinct agree g whole
    and_intros
    · exact (Graph.nodes_ofReferences _ _).trans (Graph.nodes_ofReferences _ _).symm
    · intro e
      rw [Graph.mem_edges, Graph.mem_edges]
      apply Graph.mem_links_ofFiles_iff distinct agree
    · intro u hu
      constructor
      · intro reason unreadable
        apply Graph.dependencies_ofFiles_of_unreadable distinct hu unreadable
      · intro text found
        apply Graph.dependencies_ofFiles_of_readable distinct agree ⟨u, hu, rfl, text, found⟩

/-- Of two units that mention each other the second one is lost. It is passed over by the catalog,
and the reference graph still has it as a node that the first one points at. -/
theorem failures_stay_isolated_of_lost_file :
  let keeper : SourceUnit := ⟨"zoo/Keeper.java", ⟨"zoo/Keeper.java"⟩⟩
  let animal : SourceUnit := ⟨"zoo/Animal.java", ⟨"zoo/Animal.java"⟩⟩
  let texts (p : Path) : String := if p = animal.path then "new Keeper()" else "new Animal()"
  let read (p : Path) : Except Error String :=
    if p = animal.path then .error (.fileRead p.text "lost") else .ok (texts p)
  let g := Graph.ofFiles read .standard [keeper, animal]
  let whole := Graph.ofFiles (fun p => .ok (texts p)) .standard [keeper, animal]
  (∀ parsed, ¬ Catalog.Parses read Java.parseUnit animal parsed)
    ∧ Catalog.ofUnits read Java.parseUnit [keeper, animal]
      = Catalog.ofUnits read Java.parseUnit [keeper]
    ∧ ([keeper, animal].map SourceUnit.identity).Nodup
    ∧ (∀ u ∈ [keeper, animal], ∀ text, read u.path = .ok text → texts u.path = text)
    ∧ g.nodes = whole.nodes
    ∧ animal.identity ∈ g.identities
    ∧ g.dependencies animal.identity = []
    ∧ whole.dependencies animal.identity = [keeper.identity]
    ∧ g.dependencies keeper.identity = whole.dependencies keeper.identity
    ∧ ⟨keeper.identity, animal.identity, .referencing⟩ ∈ g.edges
  := by
  intro keeper animal texts read g whole
  have lost : read animal.path = .error (.fileRead animal.path.text "lost") := if_pos rfl
  have fails : ∀ parsed, ¬ Catalog.Parses read Java.parseUnit animal parsed := by
    rintro parsed ⟨text, found, -⟩
    rw [lost] at found
    cases found
  have distinct : ([keeper, animal].map SourceUnit.identity).Nodup := by decide
  have agree : ∀ u ∈ [keeper, animal], ∀ text, read u.path = .ok text → texts u.path = text := by
    intro u hu text found
    by_cases isAnimal : u.path = animal.path
    · rw [isAnimal, lost] at found
      cases found
    · rw [show read u.path = .ok (texts u.path) from if_neg isAnimal] at found
      apply Except.ok.inj found
  obtain ⟨-, -, -, isNode, isEdge, isolated⟩ :=
    failures_stay_isolated read Java.parseUnit .standard [keeper, animal]
  obtain ⟨-, -, padded, -⟩ := failures_stay_isolated read Java.parseUnit .standard [keeper]
  obtain ⟨nodes, -, dependencies⟩ := isolated texts distinct agree
  have mentions : simpleName animal.identity ∈ ReferenceFilter.standard.references "new Animal()" := by
    decide +kernel
  and_intros
  · apply fails
  · apply padded
    exact .keep keeper (.pad fails .nil)
  · apply distinct
  · apply agree
  · apply nodes
  · exact (isNode _).mpr ⟨animal, by simp, rfl⟩
  · exact (dependencies animal (by simp)).1 _ lost
  · decide +kernel
  · exact (dependencies keeper (by simp)).2 "new Animal()" (if_neg (by decide))
  · exact (isEdge _).mpr ⟨rfl, by decide, ⟨animal, by simp, rfl⟩, keeper, by simp, rfl,
      "new Animal()", if_neg (by decide), mentions⟩

end SourceAtlas
