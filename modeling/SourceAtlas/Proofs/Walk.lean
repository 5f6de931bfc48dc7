import Mathlib.Data.List.Nodup
import SourceAtlas.Proofs.Path
import SourceAtlas.Walk

/-!
# What a walk yields

A walk comes to its files through the root: the components of their paths are those of the root, and
behind them the names that lead from there to the files (`Yields`). In a tree in which every place has
one entry each walk below a directory is such a walk (`yields_files`), since names that are joined to
the root stand behind its components, however the root is written (`components_join`).
-/

namespace SourceAtlas

/-! ### Ways -/

/-- The text can be the name of an entry of a directory. -/
def IsEntryName (name : String) : Prop :=
  FileTree.isNaming name = true ∧ '/' ∉ name.toList

instance (name : String) : Decidable (IsEntryName name) :=
  inferInstanceAs (Decidable (_ ∧ _))

/-- The names lead from a directory to something below it. -/
structure IsWay (names : List String) : Prop where
  inhabited : names ≠ []
  named : ∀ name ∈ names, IsEntryName name

namespace Path

variable {p q : Path} {names names' : List String}

theorem component?_of_isEntryName {name : String} (h : IsEntryName name) :
  component? name.toList = some (.name name)
  := by
  have field := name?_component? name.toList
  rw [String.ofList_toList, Option.guard, if_pos h.1] at field
  obtain ⟨c, found, text⟩ := Option.bind_eq_some_iff.mp field
  rw [found]
  cases c with
  | name x =>
    obtain rfl := Option.some.inj text
    rfl
  | _ => contradiction

theorem splitOn_joinNames (h : IsWay names) :
  Text.splitOn '/' (joinNames names).toList = names.map String.toList
  := by
  have segments := segments_joinNames h.inhabited fun x hx => (h.named x hx).2
  have fields := congrArg (List.map String.toList) segments
  rwa [FileTree.segments, List.map_map, List.map_congr_left (g := id), List.map_id] at fields
  intro field _
  apply String.toList_ofList

/-- The names of a way are its components. -/
theorem filterMap_component?_joinNames (h : IsWay names) :
  (Text.splitOn '/' (joinNames names).toList).filterMap component? = names.map .name
  := by
  rw [splitOn_joinNames h, List.filterMap_map, List.filterMap_eq_map_iff_forall_eq_some]
  intro name hn
  apply component?_of_isEntryName (h.named name hn)

/-- Joined names are a relative path, since a slash at the start would leave the first name empty. -/
theorem isAbsolute_joinNames (h : IsWay names) :
  isAbsolute ⟨joinNames names⟩ = false
  := by
  apply Bool.eq_false_iff.mpr
  intro absolute
  obtain ⟨cs, text⟩ : ∃ cs, (joinNames names).toList = '/' :: cs := by
    simpa [isAbsolute, List.head?_eq_some_iff] using absolute
  have fields := splitOn_joinNames h
  rw [text, Text.splitOn_cons_sep] at fields
  obtain ⟨name, rest, rfl⟩ := List.exists_cons_of_ne_nil h.inhabited
  obtain ⟨blank, -⟩ := List.cons.inj fields
  obtain ⟨naming, -⟩ := h.named name List.mem_cons_self
  rw [String.toList_eq_nil_iff.mp blank.symm] at naming
  contradiction

/-! ### Joined paths -/

theorem components_of_splitOn {first : List Char} {rest : List (List Char)}
    (split : Text.splitOn '/' p.text.toList = first :: rest) :
  p.components = (if p.isAbsolute then some .root
      else if first = ['.'] then some .here else component? first).toList ++ rest.filterMap component?
  := by
  rw [components, split]

/-- Only the first segment of a path is read in a way of its own. -/
theorem components_append {first : List Char} {rest more : List (List Char)}
    (split : Text.splitOn '/' p.text.toList = first :: rest)
    (split' : Text.splitOn '/' q.text.toList = first :: more)
    (absolute : q.isAbsolute = p.isAbsolute) {tail : List Component}
    (behind : more.filterMap component? = rest.filterMap component? ++ tail) :
  q.components = p.components ++ tail
  := by
  rw [components_of_splitOn split, components_of_splitOn split', absolute, behind, List.append_assoc]

theorem splitOn_append (front back : List Char) :
  Text.splitOn '/' (front ++ '/' :: back) = Text.splitOn '/' front ++ Text.splitOn '/' back
  := by
  rw [Text.splitOn_eq, Text.splitOn_eq, Text.splitOn_eq,
    List.splitOn_append_cons_of_beq front back (beq_self_eq_true '/')]

theorem components_joinNames (h : IsWay names) :
  components ⟨joinNames names⟩ = names.map .name
  := by
  have named := filterMap_component?_joinNames h
  obtain ⟨name, rest, rfl⟩ := List.exists_cons_of_ne_nil h.inhabited
  have fields : Text.splitOn '/' (Path.mk (joinNames (name :: rest))).text.toList
      = name.toList :: rest.map String.toList := splitOn_joinNames h
  have first := component?_of_isEntryName (h.named name List.mem_cons_self)
  have notHere : name.toList ≠ ['.'] := by
    intro here
    rw [here] at first
    contradiction
  rw [fields, List.filterMap_cons_some first] at named
  rw [components_of_splitOn fields, isAbsolute_joinNames h, if_neg Bool.false_ne_true,
    if_neg notHere, first]
  exact named

/-- What is joined to a path that ends with a slash or not goes on behind its components. -/
theorem components_join_of_ne (inhabited : p.text.toList ≠ []) (relative : q.isAbsolute = false) :
  (p.join q).components
    = p.components ++ (Text.splitOn '/' q.text.toList).filterMap component?
  := by
  have nonempty : p.text.isEmpty = false := by
    rw [Bool.eq_false_iff, Ne, String.isEmpty_iff, ← String.toList_eq_nil_iff]
    exact inhabited
  rw [join, relative, nonempty, Bool.false_or, if_neg Bool.false_ne_true]
  by_cases slash : (p.text.toList.getLast? == some '/') = true
  · rw [if_pos slash]
    obtain ⟨front, text⟩ := List.getLast?_eq_some_iff.mp (beq_iff_eq.mp slash)
    obtain ⟨first, rest, split⟩ := List.exists_cons_of_ne_nil (Text.splitOn_ne_nil '/' front)
    have whole : Text.splitOn '/' p.text.toList = first :: (rest ++ [[]]) := by
      rw [text, splitOn_append, split]
      rfl
    have joined : Text.splitOn '/' (p.text ++ q.text).toList
        = first :: (rest ++ Text.splitOn '/' q.text.toList) := by
      rw [String.toList_append, text, List.append_assoc, List.singleton_append, splitOn_append, split]
      rfl
    apply components_append whole joined
    · rw [isAbsolute, isAbsolute, String.toList_append, List.head?_append_of_ne_nil _ inhabited]
    · simp [component?]
  · rw [if_neg slash]
    obtain ⟨first, rest, split⟩ :=
      List.exists_cons_of_ne_nil (Text.splitOn_ne_nil '/' p.text.toList)
    have text : (p.text ++ "/" ++ q.text).toList = p.text.toList ++ '/' :: q.text.toList := by simp
    have joined : Text.splitOn '/' (p.text ++ "/" ++ q.text).toList
        = first :: (rest ++ Text.splitOn '/' q.text.toList) := by
      rw [text, splitOn_append, split]
      rfl
    apply components_append split joined
    · rw [isAbsolute, isAbsolute, text, List.head?_append_of_ne_nil _ inhabited]
    · rw [List.filterMap_append]

/-- The components of a path behind a root: those of the root, and behind them the names. -/
theorem components_join (p : Path) (h : IsWay names) :
  (p.join ⟨joinNames names⟩).components = p.components ++ names.map .name
  := by
  by_cases inhabited : p.text.toList = []
  · obtain rfl : p = ⟨""⟩ := congrArg Path.mk (String.toList_eq_nil_iff.mp inhabited)
    rw [join, isAbsolute_joinNames h]
    exact components_joinNames h
  · rw [components_join_of_ne inhabited (isAbsolute_joinNames h), filterMap_component?_joinNames h]

/-- The identity of a file is made of the names that lead to it from the root. -/
theorem identity?_of_components (h : IsWay names)
    (below : q.components = p.components ++ names.map .name) :
  identity? p q = some (joinNames names)
  := by
  have named : (names.map Component.name).filterMap Component.name? = names := by
    rw [List.filterMap_map]
    exact List.filterMap_some
  apply identity?_eq_some_iff.mpr
  refine ⟨_, below, ?_⟩
  rw [Spells, named]
  exact ⟨h.inhabited, rfl⟩

end Path

/-! ### Trees -/

namespace FileTree

variable {t : FileTree}

/-- No place has two entries, and every place is a way from the top. -/
structure WellFormed (t : FileTree) : Prop where
  distinct : (t.entries.map Prod.fst).Nodup
  ways : ∀ place ∈ t.entries.map Prod.fst, IsWay place

theorem WellFormed.lookup? (h : t.WellFormed) {place : Place} {entry : Entry}
    (mem : (place, entry) ∈ t.entries) :
  t.lookup? place = some entry
  := by
  have inhabited := (h.ways place (List.mem_map_of_mem mem)).inhabited
  rw [FileTree.lookup?, if_neg (by simpa using inhabited), List.lookup_eq_some_iff]
  obtain ⟨before, behind, split⟩ := List.append_of_mem mem
  refine ⟨before, behind, split, ?_⟩
  have distinct := h.distinct
  rw [split, List.map_append, List.nodup_append] at distinct
  intro other ho
  rw [bne_iff_ne]
  exact (distinct.2.2 _ (List.mem_map_of_mem ho) _ List.mem_cons_self).symm

theorem wellFormed_empty (workingDirectory : Place) :
  WellFormed { workingDirectory := workingDirectory }
  := by
  constructor
  · exact List.nodup_nil
  · exact nofun

theorem WellFormed.set (h : t.WellFormed) {place : Place} (way : IsWay place) (entry : Entry) :
  (t.set place entry).WellFormed
  := by
  have others : ((t.entries.filter (·.1 != place)).map Prod.fst).Sublist (t.entries.map Prod.fst) :=
    List.filter_sublist.map _
  constructor
  · apply List.nodup_cons.mpr
    constructor
    · intro mem
      obtain ⟨e, he, same⟩ := List.mem_map.mp mem
      exact bne_iff_ne.mp (List.mem_filter.mp he).2 same
    · apply h.distinct.sublist others
  · intro other mem
    obtain rfl | mem := List.mem_cons.mp mem
    · apply way
    · apply h.ways other (others.subset mem)

theorem WellFormed.makeDirectories (h : t.WellFormed) {place : Place}
    (named : ∀ name ∈ place, IsEntryName name) :
  (t.makeDirectories place).WellFormed
  := by
  have ways : ∀ p ∈ wayTo place, p ≠ [] → IsWay p := by
    intro p hp inhabited
    obtain ⟨n, -, rfl⟩ := List.mem_map.mp hp
    exact ⟨inhabited, fun name hn => named name (List.mem_of_mem_take hn)⟩
  rw [FileTree.makeDirectories]
  generalize wayTo place = places at ways
  induction places generalizing t with
  | nil => apply h
  | cons p places ih =>
    obtain ⟨way, ways⟩ := List.forall_mem_cons.mp ways
    rw [List.foldl_cons]
    apply ih _ ways
    split
    · apply h
    · rename_i missing
      apply h.set (way _)
      rintro rfl
      exact missing rfl

/-- A tree stays well-formed when files with proper names are put into it. -/
theorem WellFormed.putFile (h : t.WellFormed) {place : Place} (way : IsWay place)
    (bytes : List UInt8) :
  (t.putFile place bytes).WellFormed
  := by
  apply WellFormed.set _ way
  apply h.makeDirectories
  intro name hn
  apply way.named name (List.dropLast_subset place hn)

theorem isDirectory_iff {p : Path} :
  t.isDirectory p = true ↔ ∃ place, t.resolve p = .ok place ∧ t.lookup? place = some .directory
  := by
  rw [isDirectory]
  cases t.resolve p with
  | ok place => simp [Except.toOption, isDirectoryAt]
  | error e => simp [Except.toOption]

end FileTree

/-! ### Walks -/

namespace Walk

variable {t : FileTree} {s : ScanSettings} {root : Root} {names : List String}

/-- The paths lead through the root to different files below it. -/
structure Yields (root : Path) (files : List Path) : Prop where
  ways : ∀ p ∈ files, ∃ names, IsWay names ∧ p.components = root.components ++ names.map .name
  distinct : files.Pairwise fun p q => p.components ≠ q.components

theorem namesTo?_eq_some_iff {place : Place} {entry : Entry} :
  namesTo? t s root (place, entry) = some names
    ↔ place = root.place ++ names ∧ isTaken t s root place = true ∧ ∃ bytes, entry = .file bytes
  := by
  cases entry with
  | directory => simp [namesTo?]
  | file bytes =>
    rw [namesTo?]
    constructor
    · intro found
      obtain ⟨taken, below⟩ := Option.ite_none_right_eq_some.mp found
      obtain ⟨inside, taken⟩ := (Bool.and_eq_true _ _).mp taken
      obtain ⟨rest, rfl⟩ := List.isPrefixOf_iff_prefix.mp inside
      obtain rfl : rest = names := by simpa using below
      exact ⟨rfl, taken, bytes, rfl⟩
    · rintro ⟨rfl, taken, -⟩
      simp [taken]

/-- The names that lead to a file do so from the root, and the file is not at the root itself. -/
theorem isWay_of_mem_filesBelow (h : t.WellFormed)
    (directory : t.lookup? root.place = some .directory) (mem : names ∈ filesBelow t s root) :
  IsWay names
  := by
  obtain ⟨⟨place, entry⟩, mem, found⟩ := List.mem_filterMap.mp mem
  obtain ⟨rfl, -, bytes, rfl⟩ := namesTo?_eq_some_iff.mp found
  constructor
  · rintro rfl
    rw [List.append_nil] at mem
    rw [h.lookup? mem] at directory
    exact nomatch Option.some.inj directory
  · intro name hn
    apply (h.ways _ (List.mem_map_of_mem mem)).named name (List.mem_append_right _ hn)

theorem nodup_filesBelow (h : t.WellFormed) :
  (filesBelow t s root).Nodup
  := by
  have distinct : t.entries.Pairwise fun e e' => e.1 ≠ e'.1 := List.pairwise_map.mp h.distinct
  apply distinct.filterMap
  rintro ⟨place, entry⟩ ⟨place', entry'⟩ ne names found names' found' rfl
  apply ne
  rw [(namesTo?_eq_some_iff.mp found).1, (namesTo?_eq_some_iff.mp found').1]

theorem yields_files (h : t.WellFormed) (s : ScanSettings) {root : Path}
    (directory : t.isDirectory root = true) :
  Yields root (files t s root)
  := by
  obtain ⟨place, resolved, directory⟩ := FileTree.isDirectory_iff.mp directory
  have walked : files t s root
      = (filesBelow t s ⟨root, place⟩).map fun names => root.join ⟨Path.joinNames names⟩ := by
    simp only [files, resolved, directory]
  have ways : ∀ names ∈ filesBelow t s ⟨root, place⟩, IsWay names :=
    fun names mem => isWay_of_mem_filesBelow h directory mem
  rw [walked]
  constructor
  · intro p hp
    obtain ⟨names, mem, rfl⟩ := List.mem_map.mp hp
    exact ⟨names, ways names mem, Path.components_join root (ways names mem)⟩
  · apply List.pairwise_map.mpr ((nodup_filesBelow h).imp_of_mem _)
    intro names names' mem mem' ne same
    rw [Path.components_join root (ways names mem), Path.components_join root (ways names' mem'),
      List.append_cancel_left_eq] at same
    apply ne
    apply List.map_injective_iff.mpr _ same
    intro x y texts
    exact Path.Component.name.inj texts

end Walk

end SourceAtlas
