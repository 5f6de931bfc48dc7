import SourceAtlas.Proofs.Catalog.Origin
import SourceAtlas.Proofs.Seed

/-!
# Which type a seed names

A seed for a type is looked up as a full name, as a path to a file (`StandsAt`), as such a path seen
from the root and as a simple name, each only when the ways before it fail (`NamesType`). Whatever
way leads to a type, its name is catalogued (`NamesType.contains`): a file answers with a name whose
record is its own still, also when another file has taken over some of its names. The diagram around
the type then shows the members of its focus with what the catalog says about them (`FocusedOn`).
-/

namespace SourceAtlas

open Ordered (Increasing)

namespace Seed

variable {t : FileTree} {c : Catalog} {root : Path} {seed x : String} {hintLimit : Nat}

/-! ### The four ways -/

/-- The types with the given simple name, in the order of their full names. -/
def namesakes (c : Catalog) (name : String) : List TypeInfo :=
  c.types.filter (·.name == name)

/-- The path leads to the place of a catalogued file, and the first file of the catalog at that place
stands for the type `x`. -/
def StandsAt (t : FileTree) (c : Catalog) (p : Path) (x : String) : Prop :=
  ∃ place before file after, t.resolve p = .ok place ∧ c.files = before ++ file :: after
    ∧ t.resolve file = .ok place ∧ (∀ other ∈ before, t.resolve other ≠ .ok place)
    ∧ c.identityForFile? file = some x

/-- The full name of the type that a seed names. -/
inductive NamesType (t : FileTree) (c : Catalog) (root : Path) (seed : String) :
    String → Prop where
  /-- The seed is the full name of a type. -/
  | fullName (known : c.contains seed = true) :
    NamesType t c root seed seed
  /-- The seed is a path to a file that stands for a type. -/
  | file {x : String} (unknown : c.contains seed = false) (stands : StandsAt t c ⟨seed⟩ x) :
    NamesType t c root seed x
  /-- Seen from the root, the seed is a path to a file that stands for a type. -/
  | fileBelow {x : String} (unknown : c.contains seed = false)
      (nowhere : ∀ y, ¬ StandsAt t c ⟨seed⟩ y) (stands : StandsAt t c (root.join ⟨seed⟩) x) :
    NamesType t c root seed x
  /-- One type alone has the seed as its simple name. -/
  | simpleName {info : TypeInfo} (unknown : c.contains seed = false)
      (nowhere : ∀ y, ¬ StandsAt t c ⟨seed⟩ y)
      (nowhereBelow : ∀ y, ¬ StandsAt t c (root.join ⟨seed⟩) y)
      (single : namesakes c seed = [info]) :
    NamesType t c root seed info.fullName

/-- The seed names no type. -/
structure NamelessType (t : FileTree) (c : Catalog) (root : Path) (seed : String) : Prop where
  fullName : c.contains seed = false
  file : ∀ y, ¬ StandsAt t c ⟨seed⟩ y
  fileBelow : ∀ y, ¬ StandsAt t c (root.join ⟨seed⟩) y
  simpleName : (namesakes c seed).length ≠ 1

theorem byFile?_eq_some_iff {p : Path} :
  byFile? t c p = some x ↔ StandsAt t c p x
  := by
  simp only [byFile?, Option.bind_eq_bind, Option.bind_eq_some_iff, toOption_eq_some_iff,
    List.find?_eq_some_iff_append, beq_iff_eq, Bool.not_eq_true', beq_eq_false_iff_ne, ne_eq,
    StandsAt]
  constructor
  · rintro ⟨place, found, file, ⟨here, before, after, split, elsewhere⟩, named⟩
    exact ⟨place, before, file, after, found, split, here, elsewhere, named⟩
  · rintro ⟨place, before, file, after, found, split, here, elsewhere, named⟩
    exact ⟨place, found, file, ⟨here, before, after, split, elsewhere⟩, named⟩

theorem byFile?_eq_none_iff {p : Path} :
  byFile? t c p = none ↔ ∀ y, ¬ StandsAt t c p y
  := by
  simp only [Option.eq_none_iff_forall_ne_some, ne_eq, byFile?_eq_some_iff]

/-- A file answers with a name that is catalogued. -/
theorem StandsAt.contains {p : Path} (h : StandsAt t c p x) :
  c.contains x = true
  := by
  obtain ⟨_, _, file, _, -, -, -, -, named⟩ := h
  obtain ⟨info, found, -⟩ := Catalog.exists_get?_of_identityForFile? named
  apply Catalog.contains_of_get? found

theorem NamesType.contains (h : NamesType t c root seed x) :
  c.contains x = true
  := by
  cases h with
  | fullName known => apply known
  | file _ stands => apply stands.contains
  | fileBelow _ _ stands => apply stands.contains
  | @simpleName info _ _ _ single =>
    have listed : info ∈ namesakes c seed := by
      rw [single]
      apply List.mem_singleton_self
    apply Catalog.mem_identities.mp
    rw [← c.map_fullName_types]
    apply List.mem_map_of_mem (List.mem_filter.mp listed).1

theorem NamesType.not_nameless (h : NamesType t c root seed x) :
  ¬ NamelessType t c root seed
  := by
  intro nameless
  cases h with
  | fullName known => simp [nameless.fullName] at known
  | file _ stands => exact nameless.file x stands
  | fileBelow _ _ stands => exact nameless.fileBelow x stands
  | simpleName _ _ _ single =>
    apply nameless.simpleName
    rw [single]
    rfl

theorem bySimpleName?_eq_some_iff :
  bySimpleName? c seed = some x ↔ ∃ info, namesakes c seed = [info] ∧ info.fullName = x
  := by
  rw [bySimpleName?, only?_eq_some_iff, namesakes, List.map_eq_singleton_iff]

theorem bySimpleName?_eq_none_iff :
  bySimpleName? c seed = none ↔ (namesakes c seed).length ≠ 1
  := by
  rw [bySimpleName?, only?_eq_none_iff, List.length_map]
  rfl

theorem findType_cases (t : FileTree) (c : Catalog) (root : Path) (seed : String)
    (hintLimit : Nat) :
  (∃ x, NamesType t c root seed x ∧ findType t c root seed hintLimit = .ok x)
    ∨ (NamelessType t c root seed
      ∧ findType t c root seed hintLimit = .error (missing seed c.identities hintLimit))
  := by
  cases unknown : c.contains seed with
  | true =>
    refine .inl ⟨seed, .fullName unknown, ?_⟩
    simp [findType, Option.filter_some, unknown]
  | false =>
    cases file : byFile? t c ⟨seed⟩ with
    | some x =>
      refine .inl ⟨x, .file unknown (byFile?_eq_some_iff.mp file), ?_⟩
      simp [findType, Option.filter_some, unknown, file]
    | none =>
      have nowhere := byFile?_eq_none_iff.mp file
      cases below : byFile? t c (root.join ⟨seed⟩) with
      | some x =>
        refine .inl ⟨x, .fileBelow unknown nowhere (byFile?_eq_some_iff.mp below), ?_⟩
        simp [findType, Option.filter_some, unknown, file, below]
      | none =>
        have nowhereBelow := byFile?_eq_none_iff.mp below
        cases simple : bySimpleName? c seed with
        | some x =>
          obtain ⟨info, single, rfl⟩ := bySimpleName?_eq_some_iff.mp simple
          refine .inl ⟨_, .simpleName unknown nowhere nowhereBelow single, ?_⟩
          simp [findType, Option.filter_some, unknown, file, below, simple]
        | none =>
          refine .inr ⟨⟨unknown, nowhere, nowhereBelow, bySimpleName?_eq_none_iff.mp simple⟩, ?_⟩
          simp [findType, Option.filter_some, unknown, file, below, simple]

theorem findType_of_nameless (h : NamelessType t c root seed) (hintLimit : Nat) :
  findType t c root seed hintLimit = .error (missing seed c.identities hintLimit)
  := by
  obtain ⟨x, names, -⟩ | ⟨-, failed⟩ := findType_cases t c root seed hintLimit
  · exact absurd h names.not_nameless
  · exact failed

theorem exists_findType (h : ¬ NamelessType t c root seed) (hintLimit : Nat) :
  ∃ x, findType t c root seed hintLimit = .ok x
  := by
  obtain ⟨x, -, found⟩ | ⟨nameless, -⟩ := findType_cases t c root seed hintLimit
  · exact ⟨x, found⟩
  · exact absurd nameless h

end Seed

/-! ### The diagram -/

/-- The view shows the given members with what a catalog says about them, and has its seed at the
type `x`. -/
structure View.FocusedOn (c : Catalog) (members : List String) (x : String) (v : View) : Prop where
  /-- There is one node for each member. -/
  ids : v.nodes.map ViewNode.id = members
  /-- The nodes are in the order of their ids. -/
  increasing : Increasing (v.nodes.map ViewNode.id)
  /-- One node alone is flagged as seed, and it shows the record of the type. -/
  seed : ∃ node info, v.nodes.filter (·.isSeed) = [node] ∧ node.id = x ∧ c.get? x = some info
    ∧ node.package = some info.package ∧ node.kind = some info.kind
  /-- A node with a catalogued id shows the package and the kind of its record. -/
  declared : ∀ node ∈ v.nodes, ∀ info, c.get? node.id = some info →
    node.package = some info.package ∧ node.kind = some info.kind
  /-- Any other node shows neither. -/
  undeclared : ∀ node ∈ v.nodes, c.contains node.id = false →
    node.package = none ∧ node.kind = none
  /-- The ends of the edges are nodes. -/
  ends : ∀ e ∈ v.edges, e.source ∈ v.nodes.map ViewNode.id ∧ e.target ∈ v.nodes.map ViewNode.id

namespace Subgraph

variable {c : Catalog} {x : String}

theorem map_id_view (s : Subgraph) (c : Option Catalog) :
  (s.view c).nodes.map ViewNode.id = s.members
  := by
  rw [view, List.map_map]
  nth_rewrite 2 [← List.map_id s.members]
  apply List.map_congr_left
  intro x _
  apply id_viewNode

theorem viewNode_of_get? (s : Subgraph) {info : TypeInfo} (found : c.get? x = some info) :
  (s.viewNode (some c) x).package = some info.package
    ∧ (s.viewNode (some c) x).kind = some info.kind
  := by
  simp [viewNode, found, ViewNode.ofType]

theorem viewNode_of_not_contains (s : Subgraph) (missing : c.contains x = false) :
  (s.viewNode (some c) x).package = none ∧ (s.viewNode (some c) x).kind = none
  := by
  have none : c.get? x = none := by simpa [Catalog.contains] using missing
  simp [viewNode, none, ViewNode.plain]

end Subgraph

/-- The focus on a catalogued type is drawn with what the catalog says about its members. -/
theorem Focus.focusedOn_view_expand {c : Catalog} {x : String} (known : c.contains x = true)
    (relations : List FocusRelation) (rounds : Nat) :
  View.FocusedOn c (expand relations x rounds).members x ((expand relations x rounds).view (some c))
  where
  ids := Subgraph.map_id_view _ _
  increasing := by
    rw [Subgraph.map_id_view]
    apply increasing_expand
  seed := by
    obtain ⟨info, found⟩ := Catalog.exists_get? known
    obtain ⟨package, kind⟩ := (expand relations x rounds).viewNode_of_get? found
    exact ⟨_, info, seeds_view_expand relations x rounds (some c), Subgraph.id_viewNode _ _ x,
      found, package, kind⟩
  declared := by
    intro node hn info found
    obtain ⟨y, -, rfl⟩ := List.mem_map.mp hn
    rw [Subgraph.id_viewNode] at found
    apply Subgraph.viewNode_of_get? _ found
  undeclared := by
    intro node hn missing
    obtain ⟨y, -, rfl⟩ := List.mem_map.mp hn
    rw [Subgraph.id_viewNode] at missing
    apply Subgraph.viewNode_of_not_contains _ missing
  ends := by
    intro e he
    rw [Subgraph.map_id_view]
    obtain ⟨r, -, source, target, rfl⟩ := mem_edgesWithin.mp he
    exact ⟨source, target⟩

namespace Seed

variable {t : FileTree} {c : Catalog} {r : Resolver} {root : Path} {seed x : String}
  {rounds hintLimit : Nat}

/-! ### The answer -/

theorem focusTypes_of_ok (found : findType t c root seed hintLimit = .ok x) :
  Query.focusTypes t c r root seed rounds hintLimit
    = .ofSubgraph seed (Focus.expand (c.focusRelations r x) x rounds) (some c)
  := by
  rw [Query.focusTypes, found]

theorem focusTypes_of_error {e : Error} (failed : findType t c root seed hintLimit = .error e) :
  Query.focusTypes t c r root seed rounds hintLimit = .missing seed e
  := by
  rw [Query.focusTypes, failed]

/-- The question for the diagram around a type of a catalog finds the type that the seed names, if
there is one. The type is catalogued then, and the view is focused on it: its nodes are the members
in order, drawn with the catalogued data of those that have any, and with the type as its only seed.
Otherwise nothing is drawn, and the answer stands for the error with the seed and the first full
names in order as hints. -/
theorem type_question_answered (units : List (ParsedUnit × Path)) (r : Resolver) (t : FileTree)
    (root : Path) (seed : String) (rounds hintLimit : Nat) :
  let c := Catalog.build units
  let a := Query.focusTypes t c r root seed rounds hintLimit
  (a.found = true ↔ ∃ x, NamesType t c root seed x)
    ∧ (a.found = true → a.ensureFound = .ok a
      ∧ ∃ x ∈ c.identities, a.identity = some x ∧ NamesType t c root seed x
        ∧ View.FocusedOn c (Focus.expand (c.focusRelations r x) x rounds).members x a.view)
    ∧ (a.found = false → a.identity = none ∧ a.view.nodes = [] ∧ a.view.edges = []
      ∧ a.stabilized = false
      ∧ a.ensureFound = .error (.seedNotFound seed (c.identities.take hintLimit)))
    ∧ Increasing c.identities
  := by
  intro c a
  obtain ⟨x, names, found⟩ | ⟨nameless, failed⟩ := findType_cases t c root seed hintLimit
  · have answer : a = .ofSubgraph seed (Focus.expand (c.focusRelations r x) x rounds) (some c) :=
      focusTypes_of_ok found
    rw [answer]
    and_intros
    · exact ⟨fun _ => ⟨x, names⟩, fun _ => rfl⟩
    · intro _
      refine ⟨rfl, x, Catalog.mem_identities.mpr names.contains, rfl, names, ?_⟩
      apply Focus.focusedOn_view_expand names.contains
    · intro missed
      cases missed
    · apply Catalog.increasing_identities
  · have answer : a = .missing seed (missing seed c.identities hintLimit) :=
      focusTypes_of_error failed
    rw [answer]
    and_intros
    · constructor
      · intro found
        cases found
      · rintro ⟨x, names⟩
        exact absurd nameless names.not_nameless
    · intro found
      cases found
    · intro _
      exact ⟨rfl, rfl, rfl, rfl, rfl⟩
    · apply Catalog.increasing_identities

end Seed

end SourceAtlas
