import SourceAtlas.Proofs.Catalog
import SourceAtlas.Proofs.Focus
import SourceAtlas.Proofs.Path
import SourceAtlas.Proofs.Tree.Preorder
import SourceAtlas.Query

/-!
# Which unit a seed names

A seed is looked up in four ways, and a way is only tried when the ones before it lead to no node
(`Names`): as an identity, as a path to something below the root (`LeadsTo`), by the names in it, and
by its file stem (`SharesStem`). A seed is nameless when all four fail (`Nameless`). The lookup answers
with the unit that the seed names or with an error that carries the first identities as hints
(`findUnit_cases`). The
questions for a tree and for a focused diagram flatten that answer into their own and give it back
unchanged (`ensureFound_tree_of_ok`, `ensureFound_focusUnits_of_ok`, `ensureFound_of_error`).
-/

namespace SourceAtlas

open Ordered (Increasing)

/-! ### Views with one seed -/

theorem Tree.exists_texts (g : Graph) (direction : Direction) (x : String) :
  ∃ below, texts g direction x = x :: below
  := by
  rw [texts, listing_eq]
  exact ⟨_, rfl⟩

theorem Subgraph.isSeed_viewNode (s : Subgraph) (c : Option Catalog) (x : String) :
  (s.viewNode c x).isSeed = (x == s.seed)
  := rfl

theorem Subgraph.id_viewNode (s : Subgraph) (c : Option Catalog) (x : String) :
  (s.viewNode c x).id = x
  := by
  rw [viewNode]
  split
  · rename_i info found
    obtain ⟨c, -, declared⟩ := Option.bind_eq_some_iff.mp found
    apply Catalog.fullName_of_get? declared
  · rfl

/-- Of the members of a focused subgraph, the seed alone is flagged. -/
theorem Focus.seeds_view_expand (relations : List FocusRelation) (seed : String) (rounds : Nat)
    (c : Option Catalog) :
  ((expand relations seed rounds).view c).nodes.filter (·.isSeed)
    = [(expand relations seed rounds).viewNode c seed]
  := by
  have member : seed ∈ (expand relations seed rounds).members :=
    mem_expand.mpr (.refl relations rounds seed)
  have single := List.count_eq_one_of_mem (increasing_expand relations seed rounds).nodup member
  have flagged : (fun n : ViewNode => n.isSeed) ∘ (expand relations seed rounds).viewNode c
      = (· == seed) := by
    funext x
    apply Subgraph.isSeed_viewNode
  rw [Subgraph.view, List.filter_map, flagged, List.filter_beq, single]
  rfl

namespace Seed

variable {t : FileTree} {g : Graph} {root : Path} {seed x : String} {hintLimit : Nat}

/-! ### Stems -/

/-- The file stem of a path: the stem of what stands behind its last slash. -/
def HasStem (x stem : String) : Prop :=
  ∃ name, Text.IsLastField '/' x.toList name ∧ Text.IsStem name stem.toList

/-- The two paths have the same file stem. -/
def SharesStem (x y : String) : Prop :=
  ∃ stem, HasStem x stem ∧ HasStem y stem

theorem simpleName_eq_iff {stem : String} :
  simpleName x = stem ↔ HasStem x stem
  := by
  rw [simpleName, HasStem, ← String.toList_inj, String.toList_ofList, Text.splitExtension_eq_iff]
  simp only [← Text.afterLast_eq_iff, exists_eq_left']

theorem sharesStem_iff {y : String} :
  SharesStem x y ↔ simpleName x = simpleName y
  := by
  simp only [SharesStem, ← simpleName_eq_iff, exists_eq_left']
  apply eq_comm

/-- The nodes with the file stem of the seed, in order. -/
def sharing (g : Graph) (seed : String) : List String :=
  g.identities.filter fun x => simpleName x == simpleName seed

theorem mem_sharing :
  x ∈ sharing g seed ↔ x ∈ g.identities ∧ SharesStem x seed
  := by
  rw [sharing, List.mem_filter, sharesStem_iff, beq_iff_eq]

theorem sharing_eq_singleton_iff :
  sharing g seed = [x] ↔ ∀ y, (y ∈ g.identities ∧ SharesStem y seed) ↔ y = x
  := by
  simp only [← mem_sharing]
  constructor
  · intro single y
    rw [single, List.mem_singleton]
  · intro single
    have increasing : Increasing (sharing g seed) := (Ordered.increasing_ofList g.nodes).filter _
    apply increasing.ext (List.pairwise_singleton _ x)
    simpa using single

/-! ### The four ways -/

/-- The seed is a path to something below the root, and the names that lead there make up `x`. -/
def LeadsTo (t : FileTree) (root : Path) (seed x : String) : Prop :=
  ∃ base place below, t.resolve root = .ok base ∧ t.resolve ⟨seed⟩ = .ok place
    ∧ (FileTree.absolute place).components = (FileTree.absolute base).components ++ below
    ∧ Path.Spells below x

/-- The candidate is no node, or there is none. -/
def Misses (g : Graph) (candidate : Option String) : Prop :=
  ∀ x, candidate = some x → x ∉ g.identities

/-- The unit that a seed names. -/
inductive Names (t : FileTree) (g : Graph) (root : Path) (seed : String) : String → Prop where
  /-- The seed is the identity of a unit. -/
  | identity (known : seed ∈ g.identities) :
    Names t g root seed seed
  /-- The seed is a path to the file of a unit. -/
  | path {x : String} (unknown : seed ∉ g.identities) (leads : LeadsTo t root seed x)
      (known : x ∈ g.identities) :
    Names t g root seed x
  /-- The names in the seed are the path of a unit below the root. -/
  | names {x : String} (unknown : seed ∉ g.identities)
      (nowhere : ∀ y, LeadsTo t root seed y → y ∉ g.identities)
      (reads : Path.Spells (Path.components ⟨seed⟩) x) (known : x ∈ g.identities) :
    Names t g root seed x
  /-- One unit alone has the file stem of the seed. -/
  | stem {x : String} (unknown : seed ∉ g.identities)
      (nowhere : ∀ y, LeadsTo t root seed y → y ∉ g.identities)
      (unlisted : ∀ y, Path.Spells (Path.components ⟨seed⟩) y → y ∉ g.identities)
      (single : ∀ y, (y ∈ g.identities ∧ SharesStem y seed) ↔ y = x) :
    Names t g root seed x

/-- The seed names nothing. -/
structure Nameless (t : FileTree) (g : Graph) (root : Path) (seed : String) : Prop where
  /-- The seed is not the identity of a unit. -/
  identity : seed ∉ g.identities
  /-- The place below the root that the seed leads to is not that of a unit. -/
  path : ∀ y, LeadsTo t root seed y → y ∉ g.identities
  /-- The names in the seed are not the path of a unit. -/
  names : ∀ y, Path.Spells (Path.components ⟨seed⟩) y → y ∉ g.identities
  /-- The file stem of the seed is that of no unit, or of several. -/
  stem : ¬ ∃ x, ∀ y, (y ∈ g.identities ∧ SharesStem y seed) ↔ y = x

theorem Names.mem (h : Names t g root seed x) :
  x ∈ g.identities
  := by
  cases h with
  | identity known => apply known
  | path _ _ known => apply known
  | names _ _ _ known => apply known
  | stem _ _ _ single => apply ((single x).mpr rfl).1

theorem Names.not_nameless (h : Names t g root seed x) :
  ¬ Nameless t g root seed
  := by
  intro nameless
  cases h with
  | identity known => exact nameless.identity known
  | path _ leads known => exact nameless.path x leads known
  | names _ _ reads known => exact nameless.names x reads known
  | stem _ _ _ single => exact nameless.stem ⟨x, single⟩

/-! ### The lookup -/

theorem toOption_eq_some_iff {ε α : Type} {result : Except ε α} {a : α} :
  result.toOption = some a ↔ result = .ok a
  := by
  cases result <;> simp [Except.toOption]

theorem byPath?_eq_some_iff :
  byPath? t root seed = some x ↔ LeadsTo t root seed x
  := by
  simp only [byPath?, FileTree.canonical?, Option.bind_eq_bind, Option.bind_eq_some_iff,
    Option.map_eq_some_iff, toOption_eq_some_iff, Path.identity?_eq_some_iff, LeadsTo]
  constructor
  · rintro ⟨_, ⟨base, atRoot, rfl⟩, _, ⟨place, atSeed, rfl⟩, below, split, spelled⟩
    exact ⟨base, place, below, atRoot, atSeed, split, spelled⟩
  · rintro ⟨base, place, below, atRoot, atSeed, split, spelled⟩
    exact ⟨_, ⟨base, atRoot, rfl⟩, _, ⟨place, atSeed, rfl⟩, below, split, spelled⟩

theorem byNames?_eq_some_iff :
  byNames? seed = some x ↔ Path.Spells (Path.components ⟨seed⟩) x
  := by
  rw [byNames?, Path.Spells, ← Path.names]
  split
  · simp [*]
  · rename_i proper
    rw [Option.some_inj]
    apply (and_iff_right proper).symm

theorem only?_eq_some_iff {α : Type} {xs : List α} {x : α} :
  only? xs = some x ↔ xs = [x]
  := by
  unfold only?
  split
  · simp
  · rename_i several
    simpa using several x

theorem only?_eq_none_iff {α : Type} {xs : List α} :
  only? xs = none ↔ xs.length ≠ 1
  := by
  unfold only?
  split
  · simp
  · rename_i several
    simpa [List.length_eq_one_iff] using several

theorem filter_contains_eq_some_iff {candidate : Option String} :
  candidate.filter (fun x => g.contains x) = some x ↔ candidate = some x ∧ x ∈ g.identities
  := by
  simp [Graph.contains]

theorem filter_contains_eq_none_iff {candidate : Option String} :
  candidate.filter (fun x => g.contains x) = none ↔ Misses g candidate
  := by
  simp [Graph.contains, Misses]

theorem byStem?_eq_some_iff :
  byStem? g seed = some x ↔ ∀ y, (y ∈ g.identities ∧ SharesStem y seed) ↔ y = x
  := by
  rw [← sharing_eq_singleton_iff]
  apply only?_eq_some_iff

theorem findUnit_cases (t : FileTree) (g : Graph) (root : Path) (seed : String) (hintLimit : Nat) :
  (∃ x, Names t g root seed x ∧ findUnit t g root seed hintLimit = .ok x)
    ∨ (Nameless t g root seed
      ∧ findUnit t g root seed hintLimit = .error (missing seed g.identities hintLimit))
  := by
  cases identity : (some seed).filter (fun x => g.contains x) with
  | some x =>
    obtain ⟨⟨⟩, known⟩ := filter_contains_eq_some_iff.mp identity
    refine .inl ⟨seed, .identity known, ?_⟩
    simp only [findUnit, identity]
    rfl
  | none =>
    have unknown := filter_contains_eq_none_iff.mp identity seed rfl
    cases path : (byPath? t root seed).filter (fun x => g.contains x) with
    | some x =>
      obtain ⟨leads, known⟩ := filter_contains_eq_some_iff.mp path
      refine .inl ⟨x, .path unknown (byPath?_eq_some_iff.mp leads) known, ?_⟩
      simp only [findUnit, identity, path]
      rfl
    | none =>
      have nowhere (y : String) (leads : LeadsTo t root seed y) : y ∉ g.identities :=
        filter_contains_eq_none_iff.mp path y (byPath?_eq_some_iff.mpr leads)
      cases names : (byNames? seed).filter (fun x => g.contains x) with
      | some x =>
        obtain ⟨reads, known⟩ := filter_contains_eq_some_iff.mp names
        refine .inl ⟨x, .names unknown nowhere (byNames?_eq_some_iff.mp reads) known, ?_⟩
        simp only [findUnit, identity, path, names]
        rfl
      | none =>
        have unlisted (y : String) (reads : Path.Spells (Path.components ⟨seed⟩) y) :
            y ∉ g.identities :=
          filter_contains_eq_none_iff.mp names y (byNames?_eq_some_iff.mpr reads)
        cases stem : byStem? g seed with
        | some x =>
          refine .inl ⟨x, .stem unknown nowhere unlisted (byStem?_eq_some_iff.mp stem), ?_⟩
          simp only [findUnit, identity, path, names, stem]
          rfl
        | none =>
          refine .inr ⟨⟨unknown, nowhere, unlisted, ?_⟩, ?_⟩
          · rintro ⟨x, single⟩
            rw [byStem?_eq_some_iff.mpr single] at stem
            cases stem
          · simp only [findUnit, identity, path, names, stem]
            rfl

theorem findUnit_of_nameless (h : Nameless t g root seed) (hintLimit : Nat) :
  findUnit t g root seed hintLimit = .error (missing seed g.identities hintLimit)
  := by
  obtain ⟨x, names, -⟩ | ⟨-, failed⟩ := findUnit_cases t g root seed hintLimit
  · exact absurd h names.not_nameless
  · exact failed

theorem exists_findUnit (h : ¬ Nameless t g root seed) (hintLimit : Nat) :
  ∃ x, findUnit t g root seed hintLimit = .ok x
  := by
  obtain ⟨x, -, found⟩ | ⟨nameless, -⟩ := findUnit_cases t g root seed hintLimit
  · exact ⟨x, found⟩
  · exact absurd nameless h

/-! ### The answers -/

theorem ensureFound_tree_of_ok (found : findUnit t g root seed hintLimit = .ok x)
    (direction : Direction) :
  ∃ a, (Query.tree t g root seed direction hintLimit).ensureFound = .ok a
    ∧ a.identity = some x ∧ a.lines = Tree.texts g direction x
  := by
  rw [Query.tree, found]
  exact ⟨_, rfl, rfl, rfl⟩

theorem ensureFound_focusUnits_of_ok (found : findUnit t g root seed hintLimit = .ok x)
    (rounds : Nat) :
  ∃ a, (Query.focusUnits t g root seed rounds hintLimit).ensureFound = .ok a
    ∧ a.identity = some x ∧ a.view = (Focus.expand g.focusRelations x rounds).view none
  := by
  rw [Query.focusUnits, found]
  exact ⟨_, rfl, rfl, rfl⟩

/-- Both answers hold what the error of a failed lookup is made of. -/
theorem ensureFound_of_error {known : List String}
    (failed : findUnit t g root seed hintLimit = .error (missing seed known hintLimit)) :
  (∀ direction, (Query.tree t g root seed direction hintLimit).ensureFound
      = .error (missing seed known hintLimit))
    ∧ ∀ rounds, (Query.focusUnits t g root seed rounds hintLimit).ensureFound
      = .error (missing seed known hintLimit)
  := by
  constructor
  · intro direction
    rw [Query.tree, failed]
    rfl
  · intro rounds
    rw [Query.focusUnits, failed]
    rfl

/-- The lookup of a unit, the question for its tree and the question for its focused diagram agree
on every seed, in whatever direction and however many rounds. If the seed is no identity, if neither
its canonical path below the root nor the path of its names is one, and if not exactly one identity
shares its file stem, then all three fail with the seed and the first identities in order as hints.
Otherwise all three succeed with the same identity: a node, the first line of the tree and the one
node of the diagram that is flagged as seed. -/
theorem unit_questions_agree (t : FileTree) (g : Graph) (root : Path) (seed : String)
    (hintLimit : Nat) :
  let failure := Error.seedNotFound seed (g.identities.take hintLimit)
  Increasing g.identities
    ∧ (∀ x, x ∈ g.identities ↔ x ∈ g.nodes)
    ∧ ((Nameless t g root seed
        ∧ findUnit t g root seed hintLimit = .error failure
        ∧ (∀ direction,
            (Query.tree t g root seed direction hintLimit).ensureFound = .error failure)
        ∧ ∀ rounds,
            (Query.focusUnits t g root seed rounds hintLimit).ensureFound = .error failure)
      ∨ (¬ Nameless t g root seed
        ∧ ∃ x ∈ g.identities, Names t g root seed x
          ∧ findUnit t g root seed hintLimit = .ok x
          ∧ (∀ direction, ∃ a,
              (Query.tree t g root seed direction hintLimit).ensureFound = .ok a
                ∧ a.identity = some x ∧ ∃ below, a.lines = x :: below)
          ∧ ∀ rounds, ∃ a,
              (Query.focusUnits t g root seed rounds hintLimit).ensureFound = .ok a
                ∧ a.identity = some x
                ∧ ∃ node, a.view.nodes.filter (·.isSeed) = [node] ∧ node.id = x))
  := by
  intro failure
  refine ⟨Ordered.increasing_ofList _, fun x => Graph.mem_identities, ?_⟩
  obtain ⟨x, names, found⟩ | ⟨nameless, failed⟩ := findUnit_cases t g root seed hintLimit
  · refine .inr ⟨names.not_nameless, x, names.mem, names, found, ?_, ?_⟩
    · intro direction
      obtain ⟨a, answered, identity, lines⟩ := ensureFound_tree_of_ok found direction
      obtain ⟨below, texts⟩ := Tree.exists_texts g direction x
      exact ⟨a, answered, identity, below, lines.trans texts⟩
    · intro rounds
      obtain ⟨a, answered, identity, view⟩ := ensureFound_focusUnits_of_ok found rounds
      have flagged := Focus.seeds_view_expand g.focusRelations x rounds none
      rw [← view] at flagged
      exact ⟨a, answered, identity, _, flagged, Subgraph.id_viewNode _ none x⟩
  · obtain ⟨tree, focus⟩ := ensureFound_of_error failed
    exact .inl ⟨nameless, failed, tree, focus⟩

end Seed

end SourceAtlas
