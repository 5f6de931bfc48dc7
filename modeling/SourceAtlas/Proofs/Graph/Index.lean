import Mathlib.Data.List.AList
import Mathlib.Data.List.Forall2
import SourceAtlas.Proofs.Graph.Observers
import SourceAtlas.Proofs.Graph.Transcript

/-!
# Graphs with an index

A graph can be kept in an arena, where the identities lie at places and edges join places, with an
index that tells the place of an identity. The calls that build a graph are performed here on a
graph with an index. After any calls the index and the arena are inverse to each other, and the
arena holds the nodes and edges of the graph that the same calls build (`represents_build`). Every
call gets the same answer (`entries_indexed`), and what is read off by way of the index is what is
read off the graph (`observers_indexed`).
-/

namespace SourceAtlas.Graph

/-! ### Arenas -/

/-- An edge between two places. -/
structure Joint where
  source : Nat
  target : Nat
  kind : RelationKind
  deriving DecidableEq, Repr

/-- The place from which a joint is followed. -/
def Joint.foot : Direction → Joint → Nat
  | .dependencies, j => j.source
  | .dependents, j => j.target

/-- The place to which a joint is followed. -/
def Joint.tip : Direction → Joint → Nat
  | .dependencies, j => j.target
  | .dependents, j => j.source

/-- A graph whose identities lie in an arena, with an index of their places. -/
structure Indexed where
  arena : List String := []
  index : AList (fun _ : String => Nat) := ∅
  joints : List Joint := []

namespace Indexed

/-- Puts an identity at the end of the arena, unless the index has it, and tells its place. -/
def addNode (a : Indexed) (x : String) : Nat × Indexed :=
  match a.index.lookup x with
  | some place => (place, a)
  | none =>
    (a.arena.length,
      { a with arena := a.arena ++ [x], index := a.index.insert x a.arena.length })

/-- Joins the places of the two ends, unless these are equal, not in the index, or joined. -/
def addEdge (a : Indexed) (e : Edge) : Bool × Indexed :=
  if e.source = e.target then (false, a)
  else
    match a.index.lookup e.source, a.index.lookup e.target with
    | some source, some target =>
      if a.joints.any fun j => j.source == source && j.target == target then (false, a)
      else (true, { a with joints := a.joints ++ [⟨source, target, e.kind⟩] })
    | _, _ => (false, a)

/-- The graph with an index after a call. -/
def perform (a : Indexed) : Call → Indexed
  | .node x => (a.addNode x).2
  | .edge e => (a.addEdge e).2

/-- The graph with an index that a sequence of calls builds. -/
def build (calls : List Call) : Indexed :=
  calls.foldl perform {}

/-- The entry of a call. -/
def record (a : Indexed) : Call → Entry
  | .node x => .node x (a.addNode x).1
  | .edge e => .edge e (a.addEdge e).1

/-- The entries of calls that are made one after the other, the first of them on `a`. -/
def entries (a : Indexed) : List Call → List Entry
  | [] => []
  | call :: calls => a.record call :: (a.perform call).entries calls

/-- The index has the identity. -/
def contains (a : Indexed) (x : String) : Bool :=
  (a.index.lookup x).isSome

/-- The identities of the index in order. -/
def identities (a : Indexed) : List String :=
  Ordered.sort a.index.keys

/-- The edge of a joint. -/
def edge? (a : Indexed) (j : Joint) : Option Edge :=
  a.arena[j.source]?.bind fun source =>
    a.arena[j.target]?.map fun target => ⟨source, target, j.kind⟩

/-- The edges in order. -/
def edges (a : Indexed) : List Edge :=
  Ordered.sort (a.joints.filterMap a.edge?)

/-- The neighbours of an identity in a direction, in order: the index tells its place, and the
arena what lies at the other ends. -/
def neighbours (a : Indexed) (direction : Direction) (x : String) : List String :=
  match a.index.lookup x with
  | none => []
  | some place =>
    Ordered.sort ((a.joints.filter (·.foot direction == place)).filterMap fun j =>
      a.arena[j.tip direction]?)

/-- No joint ends at the place. -/
def isIsolated (a : Indexed) (place : Nat) : Bool :=
  !a.joints.any fun j => j.source == place || j.target == place

/-- The counts, taken over the places. -/
def stats (a : Indexed) : Stats where
  nodes := a.arena.length
  edges := a.joints.length
  isolated := (a.arena.zipIdx.filter fun (_, place) => a.isIsolated place).length

end Indexed

/-! ### The graph in an arena -/

/-- The joint lies between the places of the ends of the edge. -/
structure Joint.Shows (arena : List String) (j : Joint) (e : Edge) : Prop where
  source : arena[j.source]? = some e.source
  target : arena[j.target]? = some e.target
  kind : j.kind = e.kind

/-- The arena holds the nodes and edges of the graph, and the index is inverse to the arena. -/
structure Indexed.Represents (a : Indexed) (g : Graph) : Prop where
  arena : a.arena = g.nodes
  index : ∀ x place, a.index.lookup x = some place ↔ a.arena[place]? = some x
  joints : List.Forall₂ (Joint.Shows a.arena) a.joints g.links

theorem getElem?_concat_iff {xs : List String} {x y : String} {place : Nat} :
  (xs ++ [x])[place]? = some y ↔ xs[place]? = some y ∨ (place = xs.length ∧ y = x)
  := by
  grind

namespace Indexed.Represents

variable {a : Indexed} {g : Graph} {j : Joint} {e : Edge} {x y : String} {place place' : Nat}

theorem mem_nodes_iff (h : a.Represents g) :
  x ∈ g.nodes ↔ ∃ place, a.index.lookup x = some place
  := by
  simp only [h.index, ← h.arena, List.mem_iff_getElem?]

/-- The place in the order of addition is that in the index. -/
theorem idxOf?_eq (h : a.Represents g) (x : String) :
  g.nodes.idxOf? x = a.index.lookup x
  := by
  cases found : g.nodes.idxOf? x with
  | none =>
    rw [List.idxOf?_eq_none_iff, h.mem_nodes_iff] at found
    apply (Option.eq_none_iff_forall_not_mem.mpr _).symm
    intro place known
    exact found ⟨place, known⟩
  | some place =>
    obtain ⟨lt, here, -⟩ := List.idxOf?_eq_some_iff.mp found
    symm
    rw [h.index, h.arena, ← here]
    apply List.getElem?_eq_getElem

/-- Places are equal if the identities there are. -/
theorem place_eq_iff (h : a.Represents g) (there : a.arena[place']? = some y)
    (known : a.index.lookup x = some place) :
  place' = place ↔ y = x
  := by
  constructor
  · rintro rfl
    apply Option.some.inj
    rw [← there, (h.index x place').mp known]
  · rintro rfl
    apply Option.some.inj
    rw [← known, (h.index y place').mpr there]

/-! ### Calls -/

theorem addNode (h : a.Represents g) (x : String) :
  (a.addNode x).1 = (g.addNode x).1 ∧ (a.addNode x).2.Represents (g.addNode x).2
  := by
  rw [Indexed.addNode, Graph.addNode, h.idxOf?_eq]
  cases known : a.index.lookup x with
  | some place => exact ⟨rfl, h⟩
  | none =>
    have fresh : ∀ place : Nat, a.arena[place]? ≠ some x := by
      intro place there
      rw [(h.index x place).mpr there] at known
      contradiction
    refine ⟨congrArg List.length h.arena, ?_, ?_, ?_⟩
    · simp only [h.arena]
    · intro y place
      rw [getElem?_concat_iff]
      by_cases same : y = x
      · subst same
        simp [AList.lookup_insert, fresh, eq_comm]
      · simp [AList.lookup_insert_ne same, same, h.index]
    · apply h.joints.imp
      intro j e shown
      constructor
      · apply getElem?_concat_iff.mpr (.inl shown.source)
      · apply getElem?_concat_iff.mpr (.inl shown.target)
      · apply shown.kind

/-- Two places are joined as the identities there are. -/
theorem any_joints_eq (h : a.Represents g) (source : a.index.lookup x = some place)
    (target : a.index.lookup y = some place') :
  (a.joints.any fun j => j.source == place && j.target == place') = g.joins x y
  := by
  apply any_eq_of_forall₂ _ h.joints
  intro j e shown
  rw [Bool.eq_iff_iff]
  simp [h.place_eq_iff shown.source source, h.place_eq_iff shown.target target]

theorem addEdge_of_admits (h : a.Represents g) (admitted : g.admits e = true) :
  ∃ j, Joint.Shows a.arena j e ∧ a.addEdge e = (true, { a with joints := a.joints ++ [j] })
  := by
  obtain ⟨apart, source, target, single⟩ := admits_iff.mp admitted
  obtain ⟨place, source⟩ := h.mem_nodes_iff.mp source
  obtain ⟨place', target⟩ := h.mem_nodes_iff.mp target
  have free : (a.joints.any fun j => j.source == place && j.target == place') = false := by
    rw [h.any_joints_eq source target]
    simpa [← joins_iff] using single
  refine ⟨⟨place, place', e.kind⟩, ⟨?_, ?_, rfl⟩, ?_⟩
  · apply (h.index _ _).mp source
  · apply (h.index _ _).mp target
  · simp [Indexed.addEdge, apart, source, target, free]

theorem addEdge_of_not_admits (h : a.Represents g) (refused : ¬ g.admits e = true) :
  a.addEdge e = (false, a)
  := by
  rw [Indexed.addEdge]
  split
  · rfl
  · rename_i apart
    split
    · rename_i place place' source target
      rw [h.any_joints_eq source target, if_pos]
      by_contra free
      apply refused
      apply admits_iff.mpr
      exact ⟨apart, h.mem_nodes_iff.mpr ⟨place, source⟩, h.mem_nodes_iff.mpr ⟨place', target⟩,
        mt joins_iff.mpr free⟩
    · rfl

theorem addEdge (h : a.Represents g) (e : Edge) :
  (a.addEdge e).1 = (g.addEdge e).1 ∧ (a.addEdge e).2.Represents (g.addEdge e).2
  := by
  by_cases admitted : g.admits e = true
  · obtain ⟨j, shown, added⟩ := h.addEdge_of_admits admitted
    rw [added, Graph.addEdge, if_pos admitted]
    refine ⟨rfl, h.arena, h.index, ?_⟩
    exact List.rel_append h.joints (.cons shown .nil)
  · rw [h.addEdge_of_not_admits admitted, Graph.addEdge, if_neg admitted]
    exact ⟨rfl, h⟩

/-- A call gets the same answer. -/
theorem record_eq (h : a.Represents g) (call : Call) :
  a.record call = g.record call
  := by
  cases call with
  | node x => rw [Indexed.record, Graph.record, (h.addNode x).1]
  | edge e => rw [Indexed.record, Graph.record, (h.addEdge e).1]

theorem perform (h : a.Represents g) (call : Call) :
  (a.perform call).Represents (g.perform call)
  := by
  cases call with
  | node x => apply (h.addNode x).2
  | edge e => apply (h.addEdge e).2

theorem foldl_perform (h : a.Represents g) (calls : List Call) :
  (calls.foldl Indexed.perform a).Represents (calls.foldl Graph.perform g)
  := by
  induction calls generalizing a g with
  | nil => apply h
  | cons call calls ih => apply ih (h.perform call)

theorem entries_eq (h : a.Represents g) (calls : List Call) :
  a.entries calls = g.entries calls
  := by
  induction calls generalizing a g with
  | nil => rfl
  | cons call calls ih => rw [Indexed.entries, Graph.entries, h.record_eq, ih (h.perform call)]

/-! ### Observers -/

theorem contains_eq (h : a.Represents g) (x : String) :
  a.contains x = g.contains x
  := by
  rw [Bool.eq_iff_iff, Indexed.contains, Graph.contains, List.contains_iff_mem, h.mem_nodes_iff,
    Option.isSome_iff_exists]

/-- The index lists the nodes. -/
theorem identities_eq (h : a.Represents g) :
  a.identities = g.identities
  := by
  rw [Indexed.identities, Graph.identities, ← Ordered.ofList_eq_sort a.index.keys_nodup]
  apply Ordered.ofList_congr
  intro x
  rw [← AList.mem_keys, ← AList.lookup_isSome, h.mem_nodes_iff, Option.isSome_iff_exists]

theorem edge?_of_shows (shown : Joint.Shows a.arena j e) :
  a.edge? j = some e
  := by
  simp [edge?, shown.source, shown.target, shown.kind]

theorem edges_eq (h : a.Represents g) (coherent : g.Coherent) :
  a.edges = g.edges
  := by
  have links : (a.joints.filter fun _ => true).filterMap a.edge?
      = (g.links.filter fun _ => true).map id := by
    apply filterMap_filter_of_forall₂ _ _ h.joints
    · intro j e _
      rfl
    · intro j e shown
      apply edge?_of_shows shown
  rw [List.filter_true, List.filter_true, List.map_id] at links
  rw [Indexed.edges, Graph.edges, links, Ordered.ofList_eq_sort coherent.links_nodup]

theorem neighbours_eq_nil (coherent : g.Coherent) (missing : x ∉ g.nodes) (direction : Direction) :
  g.neighbours direction x = []
  := by
  apply List.eq_nil_iff_forall_not_mem.mpr
  intro y hy
  cases direction with
  | dependencies =>
    obtain ⟨e, he, rfl, -⟩ := joined_iff.mp (mem_neighbours.mp hy)
    exact missing (coherent.ends_mem e he).1
  | dependents =>
    obtain ⟨e, he, -, rfl⟩ := joined_iff.mp (mem_neighbours.mp hy)
    exact missing (coherent.ends_mem e he).2

theorem neighbours_eq (h : a.Represents g) (coherent : g.Coherent) (direction : Direction)
    (x : String) :
  a.neighbours direction x = g.neighbours direction x
  := by
  rw [Indexed.neighbours]
  cases known : a.index.lookup x with
  | none =>
    apply (neighbours_eq_nil coherent _ direction).symm
    rw [h.mem_nodes_iff, known]
    simp
  | some place =>
    cases direction with
    | dependencies =>
      rw [Graph.neighbours, coherent.dependencies_eq_sort]
      apply congrArg Ordered.sort
      apply filterMap_filter_of_forall₂ _ _ h.joints
      · intro j e shown
        rw [Bool.eq_iff_iff, beq_iff_eq, beq_iff_eq]
        apply h.place_eq_iff shown.source known
      · intro j e shown
        apply shown.target
    | dependents =>
      rw [Graph.neighbours, coherent.dependents_eq_sort]
      apply congrArg Ordered.sort
      apply filterMap_filter_of_forall₂ _ _ h.joints
      · intro j e shown
        rw [Bool.eq_iff_iff, beq_iff_eq, beq_iff_eq]
        apply h.place_eq_iff shown.target known
      · intro j e shown
        apply shown.source

theorem isIsolated_eq (h : a.Represents g) (there : a.arena[place]? = some x) :
  a.isIsolated place = g.isIsolated x
  := by
  have known := (h.index x place).mpr there
  rw [Indexed.isIsolated, Graph.isIsolated]
  congr 1
  apply any_eq_of_forall₂ _ h.joints
  intro j e shown
  rw [Bool.eq_iff_iff]
  simp [h.place_eq_iff shown.source known, h.place_eq_iff shown.target known]

theorem stats_eq (h : a.Represents g) :
  a.stats = g.stats
  := by
  have places : (a.arena.zipIdx.filter fun (_, place) => a.isIsolated place)
      = a.arena.zipIdx.filter fun (x, _) => g.isIsolated x := by
    apply List.filter_congr
    rintro ⟨x, place⟩ there
    apply h.isIsolated_eq (List.mk_mem_zipIdx_iff_getElem?.mp there)
  have nodes : (a.arena.zipIdx.filter fun (x, _) => g.isIsolated x).length
      = (g.nodes.filter g.isIsolated).length := by
    rw [← h.arena]
    nth_rewrite 2 [← List.zipIdx_map_fst 0 a.arena]
    rw [List.filter_map, List.length_map]
    rfl
  rw [Indexed.stats, Graph.stats, places, nodes, h.arena, h.joints.length_eq]

end Indexed.Represents

/-! ### Every run of calls -/

theorem represents_empty :
  Indexed.Represents {} empty
  where
  arena := rfl
  index := by simp
  joints := .nil

/-- After any calls, the arena holds the nodes and edges of the graph, and its index tells of every
identity the one place where it lies. -/
theorem represents_build (calls : List Call) :
  (Indexed.build calls).Represents (build calls)
  := represents_empty.foldl_perform calls

/-- The calls get the answers that the graph without an index gives. -/
theorem entries_indexed (calls : List Call) :
  Indexed.entries {} calls = transcript calls
  := represents_empty.entries_eq calls

/-- What is read off a built graph by way of the index and the places is what is read off its
nodes and edges. -/
theorem observers_indexed (calls : List Call) :
  let a := Indexed.build calls
  let g := build calls
  a.contains = g.contains ∧ a.identities = g.identities ∧ a.neighbours = g.neighbours
    ∧ a.edges = g.edges ∧ a.stats = g.stats
  := by
  intro a g
  have represents : a.Represents g := represents_build calls
  have coherent : g.Coherent := coherent_build calls
  and_intros
  · funext x
    apply represents.contains_eq
  · apply represents.identities_eq
  · funext direction x
    apply represents.neighbours_eq coherent
  · apply represents.edges_eq coherent
  · apply represents.stats_eq

end SourceAtlas.Graph
