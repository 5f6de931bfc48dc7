import SourceAtlas.FileTree
import SourceAtlas.Proofs.Text.Split

/-!
# Paths and their segments

A path is cut at its slashes into segments. The names of a path are those of its segments that are
neither empty nor made of one or two dots (`names_eq`). Names that are joined by slashes are found
again as the segments of the result (`segments_joinNames`), so that no two lists of names have the
same joined form (`joinNames_inj`). The identity of a file below a base is made up of the names that
lead there from the base (`identity?_eq_some_iff`).
-/

namespace SourceAtlas

open Std

/-! ### Segments -/

namespace Path

variable {p : Path} {names : List String}

theorem name?_component? (field : List Char) :
  (component? field).bind Component.name?
    = Option.guard FileTree.isNaming (String.ofList field)
  := by
  have same (text : String) : String.ofList field = text ↔ field = text.toList := by
    rw [← String.toList_inj, String.toList_ofList]
  have naming : FileTree.isNaming (String.ofList field) = true
      ↔ field ≠ [] ∧ field ≠ ['.'] ∧ field ≠ ['.', '.'] := by
    simp [FileTree.isNaming, same, and_assoc]
  by_cases blank : field = []
  · subst blank
    rfl
  · by_cases here : field = ['.']
    · subst here
      rfl
    · by_cases parent : field = ['.', '.']
      · subst parent
        rfl
      · simp [component?, Option.guard, blank, here, parent, naming, Component.name?]

/-- A slash or a dot at the start of a path is a component of its own, but no name. -/
theorem names_eq_filterMap (p : Path) :
  p.names = ((Text.splitOn '/' p.text.toList).filterMap component?).filterMap Component.name?
  := by
  obtain ⟨first, rest, split⟩ := List.exists_cons_of_ne_nil (Text.splitOn_ne_nil '/' p.text.toList)
  rw [names, components, split]
  by_cases absolute : p.isAbsolute = true
  · obtain ⟨cs, text⟩ : ∃ cs, p.text.toList = '/' :: cs := by
      simpa [isAbsolute, List.head?_eq_some_iff] using absolute
    rw [text, Text.splitOn_cons_sep] at split
    obtain ⟨rfl, -⟩ := List.cons.inj split
    simp [absolute, component?, List.filterMap_cons, Component.name?]
  · by_cases here : first = ['.']
    · simp [absolute, here, component?, List.filterMap_cons, Component.name?]
    · cases found : component? first with
      | none => simp [absolute, here, found]
      | some c => simp [absolute, here, found]

/-- The names of a path are its segments, less the empty ones and those made of dots. -/
theorem names_eq (p : Path) :
  p.names = (FileTree.segments p).filter FileTree.isNaming
  := by
  rw [names_eq_filterMap, List.filterMap_filterMap, FileTree.segments, ← List.filterMap_eq_filter,
    List.filterMap_map]
  congr 1
  funext field
  apply name?_component?

theorem slash_not_mem_of_mem_segments {segment : String} (h : segment ∈ FileTree.segments p) :
  '/' ∉ segment.toList
  := by
  obtain ⟨field, hf, rfl⟩ := List.mem_map.mp h
  rw [String.toList_ofList]
  apply Text.not_mem_of_mem_splitOn hf

theorem slash_not_mem_of_mem_names {x : String} (h : x ∈ p.names) :
  '/' ∉ x.toList
  := by
  rw [names_eq] at h
  apply slash_not_mem_of_mem_segments (List.mem_filter.mp h).1

theorem parent_not_mem_names (p : Path) :
  ".." ∉ p.names
  := by
  have unnamed : FileTree.isNaming ".." = false := by decide
  rw [names_eq, List.mem_filter, unnamed]
  simp

/-- Names that are joined by slashes are the segments of the result. -/
theorem segments_joinNames (proper : names ≠ []) (whole : ∀ x ∈ names, '/' ∉ x.toList) :
  FileTree.segments ⟨joinNames names⟩ = names
  := by
  have separate : ∀ field ∈ names.map String.toList, '/' ∉ field := by
    intro field hf
    obtain ⟨x, hx, rfl⟩ := List.mem_map.mp hf
    apply whole x hx
  rw [FileTree.segments, joinNames, String.toList_intercalate, Text.splitOn_eq]
  change List.map String.ofList (List.splitOn '/' (['/'].intercalate _)) = names
  rw [List.splitOn_intercalate '/' separate (by simpa using proper), List.map_map]
  simp

theorem joinNames_inj {names' : List String} (proper : names ≠ []) (proper' : names' ≠ [])
    (whole : ∀ x ∈ names, '/' ∉ x.toList) (whole' : ∀ x ∈ names', '/' ∉ x.toList)
    (same : joinNames names = joinNames names') :
  names = names'
  := by
  rw [← segments_joinNames proper whole, same, segments_joinNames proper' whole']

/-! ### Identities -/

/-- There are names among the components, and joined by slashes they make up `x`. -/
def Spells (components : List Component) (x : String) : Prop :=
  components.filterMap Component.name? ≠ []
    ∧ joinNames (components.filterMap Component.name?) = x

theorem below?_eq_some_iff {base : Path} {below : List Component} :
  below? base p = some below ↔ p.components = base.components ++ below
  := by
  rw [below?]
  split
  · rename_i starts
    obtain ⟨rest, split⟩ := List.isPrefixOf_iff_prefix.mp starts
    rw [← split, List.drop_left, Option.some_inj, List.append_cancel_left_eq]
  · rename_i elsewhere
    apply iff_of_false (by simp)
    intro split
    apply elsewhere
    rw [List.isPrefixOf_iff_prefix, split]
    apply List.prefix_append

/-- The identity of a file is made up of the names that lead to it from the base. -/
theorem identity?_eq_some_iff {base : Path} {x : String} :
  identity? base p = some x ↔ ∃ below, p.components = base.components ++ below ∧ Spells below x
  := by
  simp only [identity?, Option.bind_eq_some_iff, below?_eq_some_iff]
  apply exists_congr
  intro below
  apply and_congr_right
  intro _
  rw [Spells]
  split
  · simp [*]
  · rename_i proper
    rw [Option.some_inj]
    apply (and_iff_right proper).symm

/-! ### The order of paths -/

theorem Component.eq_of_rank_name {a b : Component} (rank : a.rank = b.rank)
    (name : a.name?.getD "" = b.name?.getD "") :
  a = b
  := by
  cases a <;> cases b <;> simp_all [Component.rank, Component.name?]

instance : TransOrd Component :=
  inferInstanceAs (TransCmp (compareLex (compareOn Component.rank)
    (compareOn fun c => c.name?.getD "")))

instance : LawfulEqOrd Component where
  compare_self := ReflCmp.compare_self
  eq_of_compare h := by
    obtain ⟨rank, name⟩ := Ordering.then_eq_eq.mp h
    apply Component.eq_of_rank_name
    · apply LawfulEqOrd.eq_of_compare rank
    · apply LawfulEqOrd.eq_of_compare name

theorem compareComponents_eq (as bs : List Component) :
  compareComponents as bs = compare as bs
  := by
  fun_induction compareComponents as bs with
  | case1 => rfl
  | case2 b bs => rfl
  | case3 a as => rfl
  | case4 a as b bs ih => rw [ih, List.compare_eq_compareLex, List.compareLex_cons_cons]

theorem compare_eq (p q : Path) :
  compare p q = compare p.components q.components
  := compareComponents_eq p.components q.components

instance : TransOrd Path := by
  have byComponents : (compare : Path → Path → Ordering) = compareOn components := by
    funext p q
    apply compare_eq
  rw [TransOrd, byComponents]
  infer_instance

/-- Paths compare equal if they have the same components. -/
theorem compare_eq_eq_iff {q : Path} :
  compare p q = .eq ↔ p.components = q.components
  := by
  rw [compare_eq, LawfulEqOrd.compare_eq_iff_eq]

end Path

end SourceAtlas
