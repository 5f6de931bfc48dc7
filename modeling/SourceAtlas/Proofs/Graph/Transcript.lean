import SourceAtlas.Proofs.Graph
import SourceAtlas.Proofs.Lists

/-!
# Transcripts

A transcript lists the calls that build a graph, each with its answer. The graph can be read off
its transcript (`Reflects`): the nodes are the identities that were asked for, each where it first
occurs, and the edges are those that were added. Every answer therefore follows from the entries
before it, and the entry of a refused edge can be struck out of a transcript.
-/

namespace SourceAtlas.Graph

variable {g : Graph}

/-! ### Calls with their answers -/

/-- A call with its answer. -/
inductive Entry where
  /-- The node was asked for and has the given place. -/
  | node (identity : String) (place : Nat)
  /-- The edge was asked for and either added or refused. -/
  | edge (e : Edge) (added : Bool)
  deriving DecidableEq, Repr

namespace Entry

/-- The call of an entry. -/
def call : Entry → Call
  | node x _ => .node x
  | edge e _ => .edge e

/-- The identity of the node that was asked for. -/
def identity? : Entry → Option String
  | node x _ => some x
  | edge .. => none

/-- The edge that was added. -/
def added? : Entry → Option Edge
  | node .. => none
  | edge _ false => none
  | edge e true => some e

end Entry

/-- The entry of a call. -/
def record (g : Graph) : Call → Entry
  | .node x => .node x (g.addNode x).1
  | .edge e => .edge e (g.addEdge e).1

/-- The entries of calls that are made one after the other, the first of them on `g`. -/
def entries (g : Graph) : List Call → List Entry
  | [] => []
  | call :: calls => g.record call :: (g.perform call).entries calls

/-- The entries of the calls that build a graph. -/
def transcript (calls : List Call) : List Entry :=
  empty.entries calls

/-- The identities that were asked for as nodes, in the order of the calls. -/
def asked (t : List Entry) : List String :=
  t.filterMap Entry.identity?

/-- The edges that were added, in the order of the calls. -/
def added (t : List Entry) : List Edge :=
  t.filterMap Entry.added?

theorem asked_concat (t : List Entry) (entry : Entry) :
  asked (t ++ [entry]) = asked t ++ entry.identity?.toList
  := by
  rw [asked, asked, List.filterMap_append]
  cases entry with
  | node x place => rfl
  | edge e added => rfl

theorem added_concat (t : List Entry) (entry : Entry) :
  added (t ++ [entry]) = added t ++ entry.added?.toList
  := by
  rw [added, added, List.filterMap_append]
  match entry with
  | .node x place => rfl
  | .edge e false => rfl
  | .edge e true => rfl

theorem mem_asked {t : List Entry} {x : String} :
  x ∈ asked t ↔ ∃ place, .node x place ∈ t
  := by
  rw [asked, List.mem_filterMap]
  constructor
  · rintro ⟨entry, mem, same⟩
    cases entry with
    | node y place =>
      obtain rfl : y = x := by simpa [Entry.identity?] using same
      exact ⟨place, mem⟩
    | edge e added => simp [Entry.identity?] at same
  · rintro ⟨place, mem⟩
    exact ⟨_, mem, rfl⟩

theorem mem_added {t : List Entry} {e : Edge} :
  e ∈ added t ↔ .edge e true ∈ t
  := by
  rw [added, List.mem_filterMap]
  constructor
  · rintro ⟨entry, mem, same⟩
    match entry with
    | .node x place => simp [Entry.added?] at same
    | .edge e' false => simp [Entry.added?] at same
    | .edge e' true =>
      obtain rfl : e' = e := by simpa [Entry.added?] using same
      apply mem
  · intro mem
    exact ⟨_, mem, rfl⟩

/-! ### Parts of transcripts -/

@[simp]
theorem call_record (g : Graph) (call : Call) :
  (g.record call).call = call
  := by
  cases call with
  | node x => rfl
  | edge e => rfl

@[simp]
theorem map_call_entries (g : Graph) (calls : List Call) :
  (g.entries calls).map Entry.call = calls
  := by
  induction calls generalizing g with
  | nil => rfl
  | cons call calls ih => rw [entries, List.map_cons, call_record, ih]

@[simp]
theorem length_entries (g : Graph) (calls : List Call) :
  (g.entries calls).length = calls.length
  := by
  rw [← List.length_map Entry.call, map_call_entries]

theorem entries_append (g : Graph) (calls later : List Call) :
  g.entries (calls ++ later) = g.entries calls ++ (calls.foldl perform g).entries later
  := by
  induction calls generalizing g with
  | nil => rfl
  | cons call calls ih =>
    rw [List.cons_append, entries, entries, ih, List.cons_append, List.foldl_cons]

/-- Up to any entry a transcript is that of the calls up to there, and the entry and what
follows it depend only on the graph which these calls build. -/
theorem transcript_split {calls : List Call} {before after : List Entry} {entry : Entry}
    (split : transcript calls = before ++ entry :: after) :
  let g := build (before.map Entry.call)
  calls = before.map Entry.call ++ entry.call :: after.map Entry.call
    ∧ before = transcript (before.map Entry.call)
    ∧ entry = g.record entry.call
    ∧ after = (g.perform entry.call).entries (after.map Entry.call)
  := by
  intro g
  have sequence : calls = before.map Entry.call ++ entry.call :: after.map Entry.call := by
    rw [← List.map_cons, ← List.map_append, ← split, transcript, map_call_entries]
  have parts : transcript calls = transcript (before.map Entry.call)
      ++ g.entries (entry.call :: after.map Entry.call) := by
    conv_lhs => rw [sequence]
    apply entries_append
  rw [split] at parts
  have size : before.length = (transcript (before.map Entry.call)).length := by
    rw [transcript, length_entries, List.length_map]
  obtain ⟨start, rest⟩ := List.append_inj parts size
  obtain ⟨here, later⟩ := List.cons.inj rest
  exact ⟨sequence, start, here, later⟩

/-! ### The graph of a transcript -/

/-- The graph holds what the transcript tells: its nodes are the identities asked for, each where
it first occurs, its edges are those added, and an answer to a node is the place of the node. -/
structure Reflects (g : Graph) (t : List Entry) : Prop where
  nodes : g.nodes = (asked t).eraseDups
  links : g.links = added t
  places : ∀ x place, .node x place ∈ t → place = g.nodes.idxOf x

theorem reflects_empty :
  empty.Reflects []
  where
  nodes := rfl
  links := rfl
  places := by simp

theorem addNode_place (g : Graph) (x : String) :
  (g.addNode x).1 = g.nodes.idxOf x
  := by
  rw [addNode, List.idxOf_eq_getD_idxOf?]
  split
  · rename_i place found
    rw [found]
    rfl
  · rename_i missing
    rw [missing]
    rfl

/-- Adding a node leaves all nodes at their places. -/
theorem idxOf_nodes_addNode {x y : String} (h : y ∈ (g.addNode x).2.nodes) :
  (g.addNode x).2.nodes.idxOf y = g.nodes.idxOf y
  := by
  by_cases known : x ∈ g.nodes
  · rw [addNode_of_mem known]
  · rw [addNode_of_not_mem known, List.idxOf_append]
    obtain old | rfl := mem_nodes_addNode.mp h
    · rw [if_pos old]
    · rw [if_neg known, List.idxOf_cons_self, Nat.zero_add, List.idxOf_eq_length_iff.mpr known]

theorem addEdge_added (g : Graph) (e : Edge) :
  (g.addEdge e).1 = g.admits e
  := by
  by_cases admitted : g.admits e = true
  · rw [addEdge, if_pos admitted, admitted]
  · rw [addEdge, if_neg admitted]
    simpa using admitted

section Reflects

variable {t : List Entry} (h : g.Reflects t)

include h

theorem Reflects.mem_nodes {x : String} :
  x ∈ g.nodes ↔ ∃ place, .node x place ∈ t
  := by
  rw [h.nodes, List.mem_eraseDups, mem_asked]

theorem Reflects.mem_links {e : Edge} :
  e ∈ g.links ↔ .edge e true ∈ t
  := by
  rw [h.links, mem_added]

theorem Reflects.addNode (x : String) :
  (g.addNode x).2.Reflects (t ++ [.node x (g.addNode x).1])
  := by
  constructor
  · rw [asked_concat, Entry.identity?, Option.toList_some, eraseDups_concat, ← h.nodes]
    have known : x ∈ g.nodes ↔ x ∈ asked t := by rw [h.nodes, List.mem_eraseDups]
    split
    · rename_i old
      rw [addNode_of_mem (known.mpr old)]
    · rename_i new
      rw [addNode_of_not_mem (mt known.mp new)]
  · rw [links_addNode, added_concat, Entry.added?, Option.toList_none, List.append_nil, h.links]
  · intro y place mem
    obtain old | new := List.mem_append.mp mem
    · rw [idxOf_nodes_addNode (mem_nodes_addNode.mpr (.inl (h.mem_nodes.mpr ⟨place, old⟩)))]
      apply h.places y place old
    · obtain ⟨rfl, rfl⟩ : y = x ∧ place = (g.addNode x).1 := by simpa using new
      rw [idxOf_nodes_addNode (mem_nodes_addNode.mpr (.inr rfl)), addNode_place]

theorem Reflects.addEdge (e : Edge) :
  (g.addEdge e).2.Reflects (t ++ [.edge e (g.addEdge e).1])
  := by
  constructor
  · rw [nodes_addEdge, asked_concat, Entry.identity?, Option.toList_none, List.append_nil, h.nodes]
  · rw [addEdge_added, added_concat, ← h.links]
    by_cases admitted : g.admits e = true
    · rw [addEdge_of_admits admitted, admitted]
      rfl
    · rw [addEdge_of_not_admits admitted, Bool.eq_false_iff.mpr admitted, Entry.added?,
        Option.toList_none, List.append_nil]
  · intro x place mem
    rw [nodes_addEdge]
    apply h.places x place
    simpa using mem

theorem Reflects.perform (call : Call) :
  (g.perform call).Reflects (t ++ [g.record call])
  := by
  cases call with
  | node x => apply h.addNode
  | edge e => apply h.addEdge

theorem Reflects.foldl_perform (calls : List Call) :
  (calls.foldl Graph.perform g).Reflects (t ++ g.entries calls)
  := by
  induction calls generalizing g t with
  | nil => simpa [entries] using h
  | cons call calls ih =>
    rw [entries, List.append_cons]
    apply ih (h.perform call)

end Reflects

theorem reflects_build (calls : List Call) :
  (build calls).Reflects (transcript calls)
  := reflects_empty.foldl_perform calls

/-! ### Answers -/

section Answers

variable {calls : List Call} {before after : List Entry} {e : Edge}

/-- An edge is added if it joins two identities that were asked for before, unless an edge between
them was added before. -/
theorem added_iff_of_split {added : Bool}
    (split : transcript calls = before ++ .edge e added :: after) :
  added = true ↔ e.source ≠ e.target
    ∧ (∃ place, .node e.source place ∈ before) ∧ (∃ place, .node e.target place ∈ before)
    ∧ ∀ kind, .edge ⟨e.source, e.target, kind⟩ true ∉ before
  := by
  obtain ⟨-, start, here, -⟩ := transcript_split split
  have sofar : (build (before.map Entry.call)).Reflects before := by
    conv => rhs; rw [start]
    apply reflects_build
  have answer : added = ((build (before.map Entry.call)).addEdge e).1 := (Entry.edge.inj here).2
  rw [answer, addEdge_added, admits_iff, sofar.mem_nodes, sofar.mem_nodes]
  simp only [Joined, sofar.mem_links, not_exists]

/-- Without the call for a refused edge, the other calls are answered as before. -/
theorem transcript_of_refused (split : transcript calls = before ++ .edge e false :: after) :
  transcript ((before ++ after).map Entry.call) = before ++ after
    ∧ build ((before ++ after).map Entry.call) = build calls
  := by
  obtain ⟨sequence, start, here, later⟩ := transcript_split split
  have answer : false = ((build (before.map Entry.call)).addEdge e).1 := (Entry.edge.inj here).2
  have unchanged : (build (before.map Entry.call)).perform (.edge e)
      = build (before.map Entry.call) := by
    apply addEdge_of_not_admits
    rw [← addEdge_added, ← answer]
    apply Bool.false_ne_true
  have rest : after = (build (before.map Entry.call)).entries (after.map Entry.call) := by
    rw [← unchanged]
    apply later
  rw [List.map_append]
  constructor
  · calc transcript (before.map Entry.call ++ after.map Entry.call)
      _ = transcript (before.map Entry.call)
          ++ (build (before.map Entry.call)).entries (after.map Entry.call) := entries_append ..
      _ = before ++ after := by rw [← start, ← rest]
  · rw [sequence, build, build, List.foldl_append, List.foldl_append, List.foldl_cons]
    congr 1
    apply unchanged.symm

end Answers

/-- The answers to the calls that build a graph. A node is told how many different identities were
asked for before its own identity first was, whenever it is asked for. An edge is added exactly if
it joins two different identities that were asked for before, between which no edge was added
before. The edges of the graph are the added ones, so that two identities are joined at most once
in a direction, by the first edge that was added. The graph and all other answers would be the
same without the call for an edge that was refused. -/
theorem transcript_decides_graph (calls : List Call) :
  let t := transcript calls
  let g := build calls
  t.map Entry.call = calls
    ∧ (∀ x place, .node x place ∈ t → place = ((asked t).takeWhile (· ≠ x)).toFinset.card)
    ∧ (∀ before e added after, t = before ++ .edge e added :: after →
        (added = true ↔ e.source ≠ e.target
          ∧ (∃ place, .node e.source place ∈ before) ∧ (∃ place, .node e.target place ∈ before)
          ∧ ∀ kind, .edge ⟨e.source, e.target, kind⟩ true ∉ before))
    ∧ (∀ e, e ∈ g.edges ↔ .edge e true ∈ t)
    ∧ (g.edges.map fun e => (e.source, e.target)).Nodup
    ∧ (∀ e ∈ g.edges, ∃ before after, t = before ++ .edge e true :: after
        ∧ ∀ kind, .edge ⟨e.source, e.target, kind⟩ true ∉ before)
    ∧ (∀ e ∈ g.edges, e.source ≠ e.target ∧ e.source ∈ g.identities ∧ e.target ∈ g.identities)
    ∧ ∀ before e after, t = before ++ .edge e false :: after →
        transcript ((before ++ after).map Entry.call) = before ++ after
          ∧ build ((before ++ after).map Entry.call) = g
  := by
  intro t g
  have reflects : g.Reflects t := reflects_build calls
  have coherent : g.Coherent := coherent_build calls
  have edges (e : Edge) : e ∈ g.edges ↔ .edge e true ∈ t := mem_edges.trans reflects.mem_links
  and_intros
  · apply map_call_entries
  · intro x place mem
    rw [reflects.places x place mem, reflects.nodes, idxOf_eraseDups (mem_asked.mpr ⟨place, mem⟩)]
  · intro before e added after split
    apply added_iff_of_split split
  · apply edges
  · apply ((Ordered.ofList_perm coherent.links_nodup).map _).nodup_iff.mpr coherent.ends_nodup
  · intro e he
    obtain ⟨before, after, split⟩ := List.append_of_mem ((edges e).mp he)
    obtain ⟨-, -, -, first⟩ := (added_iff_of_split split).mp rfl
    exact ⟨before, after, split, first⟩
  · intro e he
    rw [mem_edges] at he
    rw [mem_identities, mem_identities]
    exact ⟨coherent.ends_ne e he, coherent.ends_mem e he⟩
  · intro before e after split
    apply transcript_of_refused split

/-- An edge that is refused while one of its ends is missing can be added later, and from then on
no other edge between the two. -/
example :
  transcript [.node "a", .edge ⟨"a", "b", .extending⟩, .node "b", .edge ⟨"a", "b", .referencing⟩,
      .edge ⟨"a", "b", .extending⟩, .node "a"]
    = [.node "a" 0, .edge ⟨"a", "b", .extending⟩ false, .node "b" 1,
        .edge ⟨"a", "b", .referencing⟩ true, .edge ⟨"a", "b", .extending⟩ false, .node "a" 0]
  := by decide

end SourceAtlas.Graph
