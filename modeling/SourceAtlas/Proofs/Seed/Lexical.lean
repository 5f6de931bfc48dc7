import SourceAtlas.Proofs.Path
import SourceAtlas.Proofs.Seed

/-!
# Seeds that are paths below the root

A path below the root can be followed without looking at any file: a name goes down, two dots go up
again, and there is nothing above the root (`lexical?`). The lookup of a seed reads off its names
only. So it finds the place that the seed leads to exactly if the seed has no two dots among its
segments, or no names at all (`lexical?_eq_byNames?`, `lexical?_ne_byNames?`).
-/

namespace SourceAtlas

/-- A directory in front of a path leaves its file stem as it is. -/
theorem simpleName_append (directory x : String) :
  simpleName (directory ++ "/" ++ x) = simpleName x
  := by
  have slash : (directory ++ "/" ++ x).toList = directory.toList ++ '/' :: x.toList := by simp
  rw [simpleName, simpleName, slash, Text.afterLast_append_cons]

namespace Seed

variable {t : FileTree} {g : Graph} {root : Path} {seed x segment : String} {hintLimit : Nat}
  {place place' : Place} {segments : List String}

/-! ### Lexical resolution -/

/-- Follows a segment from a place below the root. Nothing is above the root. -/
def follow? (place : Place) (segment : String) : Option Place :=
  if segment = ".." then (if place = [] then none else some place.dropLast)
  else if FileTree.isNaming segment then some (place ++ [segment])
  else some place

/-- The identity of the place that a seed leads to from the root, if it is below the root. -/
def lexical? (seed : String) : Option String :=
  match (FileTree.segments ⟨seed⟩).foldlM follow? [] with
  | none => none
  | some [] => none
  | some place => some (Path.joinNames place)

theorem follow?_cases (h : follow? place segment = some place') :
  (segment = ".." ∧ ∃ x, place = place' ++ [x])
    ∨ (segment ≠ ".." ∧ FileTree.isNaming segment = true ∧ place' = place ++ [segment])
    ∨ (segment ≠ ".." ∧ FileTree.isNaming segment = false ∧ place' = place)
  := by
  rw [follow?] at h
  by_cases parent : segment = ".."
  · by_cases top : place = []
    · simp [parent, top] at h
    · rw [if_pos parent, if_neg top] at h
      obtain rfl := Option.some.inj h
      exact .inl ⟨parent, _, (List.dropLast_append_getLast top).symm⟩
  · cases naming : FileTree.isNaming segment with
    | true =>
      simp only [parent, naming, if_true, if_false] at h
      exact .inr (.inl ⟨parent, rfl, (Option.some.inj h).symm⟩)
    | false =>
      simp only [parent, naming, if_false] at h
      exact .inr (.inr ⟨parent, rfl, by simpa using h.symm⟩)

/-- Without two dots, following a path collects its names. -/
theorem foldlM_follow?_of_not_mem (flat : ".." ∉ segments) (place : Place) :
  segments.foldlM follow? place = some (place ++ segments.filter FileTree.isNaming)
  := by
  induction segments generalizing place with
  | nil => simp
  | cons segment segments ih =>
    obtain ⟨ne, flat⟩ := List.ne_and_not_mem_of_not_mem_cons flat
    rw [List.foldlM_cons, follow?, if_neg (Ne.symm ne)]
    by_cases naming : FileTree.isNaming segment = true
    · rw [if_pos naming, List.filter_cons_of_pos naming]
      simpa using ih flat (place ++ [segment])
    · rw [if_neg naming, List.filter_cons_of_neg naming]
      apply ih flat

/-- Every two dots on the way take back one name. -/
theorem length_of_foldlM_follow? (h : segments.foldlM follow? place = some place') :
  place'.length + segments.count ".." = place.length + (segments.filter FileTree.isNaming).length
  := by
  induction segments generalizing place with
  | nil =>
    obtain rfl := Option.some.inj h
    rfl
  | cons segment segments ih =>
    rw [List.foldlM_cons] at h
    obtain ⟨between, first, rest⟩ := Option.bind_eq_some_iff.mp h
    have lengths := ih rest
    obtain ⟨rfl, x, rfl⟩ | ⟨ne, naming, rfl⟩ | ⟨ne, unnamed, rfl⟩ := follow?_cases first
    · rw [List.count_cons_self, List.filter_cons_of_neg (by decide),
        List.length_append, List.length_singleton]
      omega
    · rw [List.count_cons_of_ne ne, List.filter_cons_of_pos naming, List.length_cons]
      rw [List.length_append, List.length_singleton] at lengths
      omega
    · rw [List.count_cons_of_ne ne, List.filter_cons_of_neg (by simp [unnamed])]
      apply lengths

/-- All names of the place stand in the path. -/
theorem mem_of_foldlM_follow? (h : segments.foldlM follow? place = some place')
    (hx : x ∈ place') :
  x ∈ place ∨ x ∈ segments
  := by
  induction segments generalizing place with
  | nil =>
    obtain rfl := Option.some.inj h
    apply Or.inl hx
  | cons segment segments ih =>
    rw [List.foldlM_cons] at h
    obtain ⟨between, first, rest⟩ := Option.bind_eq_some_iff.mp h
    rw [List.mem_cons]
    obtain old | new := ih rest
    · obtain ⟨-, y, rfl⟩ | ⟨-, -, rfl⟩ | ⟨-, -, rfl⟩ := follow?_cases first
      · apply Or.inl (List.mem_append_left _ old)
      · obtain old | here := List.mem_append.mp old
        · apply Or.inl old
        · apply Or.inr (.inl (List.mem_singleton.mp here))
      · apply Or.inl old
    · apply Or.inr (.inr new)

/-! ### The names of a seed -/

theorem lexical?_eq_some_iff :
  lexical? seed = some x
    ↔ ∃ place, (FileTree.segments ⟨seed⟩).foldlM follow? [] = some place ∧ place ≠ []
      ∧ Path.joinNames place = x
  := by
  rw [lexical?]
  split
  · simp [*]
  · simp [*]
  · rename_i place proper found
    constructor
    · intro joined
      exact ⟨place, found, proper, Option.some.inj joined⟩
    · rintro ⟨place', found', -, rfl⟩
      rw [Option.some.inj (found.symm.trans found')]

theorem lexical?_eq_byNames?
    (plain : ".." ∉ FileTree.segments ⟨seed⟩ ∨ Path.names ⟨seed⟩ = []) :
  lexical? seed = byNames? seed
  := by
  apply Option.ext
  intro x
  rw [lexical?_eq_some_iff, byNames?_eq_some_iff, Path.Spells, ← Path.names]
  obtain flat | nameless := plain
  · rw [foldlM_follow?_of_not_mem flat, List.nil_append, ← Path.names_eq]
    simp
  · apply iff_of_false
    · rintro ⟨place, found, proper, -⟩
      have lengths := length_of_foldlM_follow? found
      rw [← Path.names_eq, nameless, List.length_nil] at lengths
      apply proper
      apply List.eq_nil_of_length_eq_zero
      omega
    · rintro ⟨proper, -⟩
      exact proper nameless

/-- The place to which a seed with two dots leads has fewer names than the seed, as every two dots
take one back. -/
theorem lexical?_ne_byNames? (parent : ".." ∈ FileTree.segments ⟨seed⟩)
    (proper : Path.names ⟨seed⟩ ≠ []) :
  lexical? seed ≠ some (Path.joinNames (Path.names ⟨seed⟩))
  := by
  intro same
  obtain ⟨place, found, inside, joined⟩ := lexical?_eq_some_iff.mp same
  have segmental : ∀ x ∈ place, x ∈ FileTree.segments ⟨seed⟩ := by
    intro x hx
    simpa using mem_of_foldlM_follow? found hx
  have named : place = Path.names ⟨seed⟩ := by
    apply Path.joinNames_inj inside proper _ _ joined
    · intro x hx
      apply Path.slash_not_mem_of_mem_segments (segmental x hx)
    · intro x hx
      apply Path.slash_not_mem_of_mem_names hx
  have lengths := length_of_foldlM_follow? found
  have some := List.count_pos_iff.mpr parent
  rw [named, Path.names_eq, List.length_nil] at lengths
  omega

/-! ### The lookup -/

/-- A seed that is no identity and leads to no file is looked up by its names and then by its
stem. -/
theorem findUnit_eq_ok_iff (unknown : seed ∉ g.identities) (nowhere : byPath? t root seed = none) :
  findUnit t g root seed hintLimit = .ok x
    ↔ (byNames? seed = some x ∧ x ∈ g.identities)
      ∨ (Misses g (byNames? seed) ∧ sharing g seed = [x])
  := by
  obtain ⟨y, names, found⟩ | ⟨nameless, failed⟩ := findUnit_cases t g root seed hintLimit
  · rw [found, Except.ok.injEq]
    cases names with
    | identity known => exact absurd known unknown
    | path _ leads =>
      rw [byPath?_eq_some_iff.mpr leads] at nowhere
      cases nowhere
    | names _ _ reads known =>
      have reads := byNames?_eq_some_iff.mpr reads
      constructor
      · rintro rfl
        exact .inl ⟨reads, known⟩
      · rintro (⟨reads', -⟩ | ⟨unlisted, -⟩)
        · apply Option.some.inj (reads.symm.trans reads')
        · exact absurd known (unlisted y reads)
    | stem _ _ unlisted single =>
      have single := sharing_eq_singleton_iff.mpr single
      have unlisted : Misses g (byNames? seed) :=
        fun y reads => unlisted y (byNames?_eq_some_iff.mp reads)
      constructor
      · rintro rfl
        exact .inr ⟨unlisted, single⟩
      · rintro (⟨reads, known⟩ | ⟨-, single'⟩)
        · exact absurd known (unlisted x reads)
        · apply (List.cons.inj (single.symm.trans single')).1
  · rw [failed]
    apply iff_of_false
    · rintro ⟨⟩
    · rintro (⟨reads, known⟩ | ⟨-, single⟩)
      · exact nameless.names x (byNames?_eq_some_iff.mp reads) known
      · exact nameless.stem ⟨x, sharing_eq_singleton_iff.mp single⟩

/-- Names without slashes and dots do not make up a path with two dots. -/
theorem ne_joinNames (parent : ".." ∈ FileTree.segments ⟨seed⟩) {names : List String}
    (proper : names ≠ []) (whole : ∀ x ∈ names, '/' ∉ x.toList) (plain : ".." ∉ names) :
  seed ≠ Path.joinNames names
  := by
  rintro rfl
  rw [Path.segments_joinNames proper whole] at parent
  exact plain parent

/-- Besides the unit that has the names of the seed as its path there may be another one with the
same stem, so that the first is not found by its stem. -/
theorem exists_misled (parent : ".." ∈ FileTree.segments ⟨seed⟩) (proper : Path.names ⟨seed⟩ ≠ []) :
  let x := Path.joinNames (Path.names ⟨seed⟩)
  let g := Graph.build [.node x, .node ("lib" ++ "/" ++ x)]
  seed ∉ g.identities ∧ x ∈ g.identities ∧ sharing g seed ≠ [x]
  := by
  intro x g
  have known (y : String) : y ∈ g.identities ↔ y = x ∨ y = "lib" ++ "/" ++ x := by
    simp [g, Graph.build, Graph.perform, Graph.empty]
  have whole : ∀ y ∈ Path.names ⟨seed⟩, '/' ∉ y.toList :=
    fun y hy => Path.slash_not_mem_of_mem_names hy
  have plain := Path.parent_not_mem_names ⟨seed⟩
  have other : "lib" ++ "/" ++ x = Path.joinNames ("lib" :: Path.names ⟨seed⟩) := by
    obtain ⟨first, rest, split⟩ := List.exists_cons_of_ne_nil proper
    simp only [x, split]
    apply String.intercalate_cons_cons.symm
  and_intros
  · rw [known, not_or]
    constructor
    · apply ne_joinNames parent proper whole plain
    · rw [other]
      apply ne_joinNames parent (List.cons_ne_nil _ _)
      · intro y hy
        obtain rfl | hy := List.mem_cons.mp hy
        · decide
        · apply whole y hy
      · rw [List.mem_cons, not_or]
        exact ⟨by decide, plain⟩
  · apply (known x).mpr (.inl rfl)
  · intro single
    have shared : x ∈ sharing g seed := by
      rw [single]
      apply List.mem_singleton_self
    have alike : "lib" ++ "/" ++ x ∈ sharing g seed := by
      apply List.mem_filter.mpr
      rw [simpleName_append]
      exact ⟨(known _).mpr (.inr rfl), (List.mem_filter.mp shared).2⟩
    rw [single, List.mem_singleton] at alike
    simpa using congrArg String.length alike

/-- A seed that is no identity and leads to no file is found at the place below the root that it
leads to lexically, or else by a stem that one unit alone has, if there are no two dots among its
segments or no names. For any other seed there is a graph in which the lookup answers with a unit
that is neither of the two, since the two dots are left out and what they take back is not. -/
theorem unit_found_lexically (seed : String) :
  ((".." ∉ FileTree.segments ⟨seed⟩ ∨ Path.names ⟨seed⟩ = []) →
      ∀ t g root hintLimit x, seed ∉ g.identities → byPath? t root seed = none →
        (findUnit t g root seed hintLimit = .ok x
          ↔ (lexical? seed = some x ∧ x ∈ g.identities)
            ∨ (Misses g (lexical? seed) ∧ sharing g seed = [x])))
    ∧ (".." ∈ FileTree.segments ⟨seed⟩ → Path.names ⟨seed⟩ ≠ [] →
      ∃ calls x, seed ∉ (Graph.build calls).identities
        ∧ lexical? seed ≠ some x ∧ sharing (Graph.build calls) seed ≠ [x]
        ∧ ∀ t root hintLimit, byPath? t root seed = none →
            findUnit t (Graph.build calls) root seed hintLimit = .ok x)
  := by
  constructor
  · intro plain t g root hintLimit x unknown nowhere
    rw [lexical?_eq_byNames? plain]
    apply findUnit_eq_ok_iff unknown nowhere
  · intro parent proper
    obtain ⟨unknown, known, several⟩ := exists_misled parent proper
    refine ⟨_, _, unknown, lexical?_ne_byNames? parent proper, several, ?_⟩
    intro t root hintLimit nowhere
    apply (findUnit_eq_ok_iff unknown nowhere).mpr
    exact .inl ⟨byNames?_eq_some_iff.mpr ⟨proper, rfl⟩, known⟩

/-- The seed leads to one of two units with the same stem, and the other is found. -/
theorem unit_found_elsewhere :
  let g := Graph.build [.node "a/b/X.java", .node "b/X.java"]
  let seed := "a/../b/X.java"
  Path.isAbsolute ⟨seed⟩ = false
    ∧ seed ∉ g.identities
    ∧ byPath? {} ⟨"missing"⟩ seed = none
    ∧ lexical? seed = some "b/X.java"
    ∧ sharing g seed = ["a/b/X.java", "b/X.java"]
    ∧ findUnit {} g ⟨"missing"⟩ seed 10 = .ok "a/b/X.java"
  := by
  decide +kernel

end Seed

end SourceAtlas
