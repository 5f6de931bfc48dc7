import SourceAtlas.Proofs.Lists
import SourceAtlas.Proofs.Ordered
import SourceAtlas.Proofs.Walk
import SourceAtlas.Scan

/-!
# Source units and their statistics

The units of a scan and its statistics are made of the same files, with a filter each. Whatever a walk
yields below a root, they belong together (`Describes`): there is one unit for each source file, the
identities are different and lead from the root back to the files, and the statistics count the units.
-/

namespace SourceAtlas.Scan

open Ordered (Increasing)
open Walk (Yields)

variable {s : ScanSettings} {root : Path} {files : List Path}

/-- The units and the statistics are those of the files of a walk below the root. -/
structure Describes (s : ScanSettings) (root : Path) (files : List Path) (units : List SourceUnit)
    (stats : Stats) : Prop where
  /-- The files with units are those with a configured extension. -/
  sources : ∀ p, p ∈ units.map SourceUnit.path
    ↔ p ∈ files ∧ ∃ extension ∈ s.extensions, p.extension? = some extension
  /-- No file has two units. -/
  single : (units.map SourceUnit.path).Nodup
  increasing : Increasing (units.map SourceUnit.identity)
  /-- An identity is made of the components of the file below the root. -/
  identity : ∀ u ∈ units, ∃ names, IsWay names ∧ u.identity = Path.joinNames names
    ∧ u.path.components = root.components ++ names.map .name
  /-- Seen from the root, the identity is the path of the file. -/
  joined : ∀ u ∈ units, (root.join ⟨u.identity⟩).same u.path = true
  total : stats.total = units.length
  extensions : Increasing (stats.byExtension.map Prod.fst)
  /-- The extensions that occur are counted, each with the number of its units. -/
  counts : ∀ extension n, (extension, n) ∈ stats.byExtension
    ↔ n = units.countP (·.path.extension? == some extension) ∧ 0 < n
  sum : (stats.byExtension.map Prod.snd).sum = stats.total

theorem isSource_iff {p : Path} :
  isSource s p = true ↔ ∃ extension ∈ s.extensions, p.extension? = some extension
  := by
  simp [isSource, Option.any_eq_true, and_comm]

/-! ### Units -/

theorem unit?_of_yields (h : Yields root files) {p : Path} (hp : p ∈ files) :
  ∃ names, IsWay names ∧ p.components = root.components ++ names.map .name
    ∧ unit? root p = some ⟨Path.joinNames names, p⟩
  := by
  obtain ⟨names, way, below⟩ := h.ways p hp
  refine ⟨names, way, below, ?_⟩
  rw [unit?, Path.identity?_of_components way below, Option.map_some]

theorem unit?_of_mem_unitsOf {u : SourceUnit} (hu : u ∈ unitsOf s root files) :
  u.path ∈ files ∧ unit? root u.path = some u
  := by
  obtain ⟨p, hp, unit⟩ := List.mem_filterMap.mp (Ordered.mem_of_mem_ofList hu)
  obtain ⟨identity, -, rfl⟩ := Option.map_eq_some_iff.mp unit
  exact ⟨(List.mem_filter.mp hp).1, unit⟩

/-- A unit is named by the way from the root to its file. -/
theorem identity_of_mem_unitsOf (h : Yields root files) {u : SourceUnit}
    (hu : u ∈ unitsOf s root files) :
  ∃ names, IsWay names ∧ u.identity = Path.joinNames names
    ∧ u.path.components = root.components ++ names.map .name
  := by
  obtain ⟨inside, unit⟩ := unit?_of_mem_unitsOf hu
  obtain ⟨names, way, below, unit'⟩ := unit?_of_yields h inside
  refine ⟨names, way, ?_, below⟩
  rw [Option.some.inj (unit.symm.trans unit')]

/-- Different files of a walk have different identities. Names have no slashes in them, so joined
ways are equal only if the ways are. -/
theorem pairwise_units (h : Yields root files) (s : ScanSettings) :
  ((files.filter (isSource s)).filterMap (unit? root)).Pairwise fun u v => compare u v ≠ .eq
  := by
  apply List.pairwise_filterMap.mpr ((h.distinct.filter _).imp_of_mem _)
  intro p q hp hq ne u found v found' same
  obtain ⟨names, way, below, unit⟩ := unit?_of_yields h (List.mem_filter.mp hp).1
  obtain ⟨names', way', below', unit'⟩ := unit?_of_yields h (List.mem_filter.mp hq).1
  obtain rfl := Option.some.inj (unit.symm.trans found)
  obtain rfl := Option.some.inj (unit'.symm.trans found')
  have joined : Path.joinNames names = Path.joinNames names' := Std.LawfulEqOrd.eq_of_compare same
  obtain rfl := Path.joinNames_inj way.inhabited way'.inhabited (fun x hx => (way.named x hx).2)
    (fun x hx => (way'.named x hx).2) joined
  exact ne (below.trans below'.symm)

/-- Each source file has one unit. -/
theorem map_path_unitsOf (h : Yields root files) (s : ScanSettings) :
  ((unitsOf s root files).map SourceUnit.path).Perm (files.filter (isSource s))
  := by
  have units := Ordered.ofList_perm_of_pairwise (pairwise_units h s)
  have paths : ((files.filter (isSource s)).filterMap (unit? root)).map SourceUnit.path
      = (files.filter (isSource s)).map id := by
    rw [List.map_filterMap, List.filterMap_eq_map_iff_forall_eq_some]
    intro p hp
    obtain ⟨names, -, -, unit⟩ := unit?_of_yields h (List.mem_filter.mp hp).1
    rw [unit]
    rfl
  rw [List.map_id] at paths
  rw [← paths]
  apply units.map

/-! ### Statistics -/

section Statistics

variable {units : List SourceUnit}
    (paths : (units.map SourceUnit.path).Perm (files.filter (isSource s)))
include paths

theorem count_extensions (extension : String) :
  ((files.filter (isSource s)).filterMap Path.extension?).count extension
    = units.countP (·.path.extension? == some extension)
  := by
  rw [List.count_filterMap, ← paths.countP_eq, List.countP_map]
  rfl

theorem total_statsOf :
  (statsOf s files).total = units.length
  := by
  have sized : ((files.filter (isSource s)).filterMap Path.extension?).length
      = (files.filter (isSource s)).length := by
    rw [List.length_filterMap_eq_countP, List.countP_eq_length]
    intro p hp
    obtain ⟨extension, -, found⟩ := isSource_iff.mp (List.mem_filter.mp hp).2
    rw [found]
    rfl
  rw [statsOf, sized, ← paths.length_eq, List.length_map]

theorem mem_byExtension_statsOf {extension : String} {n : Nat} :
  (extension, n) ∈ (statsOf s files).byExtension
    ↔ n = units.countP (·.path.extension? == some extension) ∧ 0 < n
  := by
  rw [statsOf, ← count_extensions paths]
  simp only [List.mem_map, Ordered.mem_ofList, Prod.mk.injEq]
  constructor
  · rintro ⟨_, mem, rfl, rfl⟩
    exact ⟨rfl, List.count_pos_iff.mpr mem⟩
  · rintro ⟨rfl, occurs⟩
    exact ⟨extension, List.count_pos_iff.mp occurs, rfl, rfl⟩

end Statistics

theorem increasing_byExtension (s : ScanSettings) (files : List Path) :
  Increasing ((statsOf s files).byExtension.map Prod.fst)
  := by
  have keys : (statsOf s files).byExtension.map Prod.fst
      = Ordered.ofList ((files.filter (isSource s)).filterMap Path.extension?) := by
    rw [statsOf, List.map_map]
    apply List.map_id
  rw [keys]
  apply Ordered.increasing_ofList

/-- The counts of the extensions add up. -/
theorem sum_byExtension (s : ScanSettings) (files : List Path) :
  ((statsOf s files).byExtension.map Prod.snd).sum = (statsOf s files).total
  := by
  let extensions := (files.filter (isSource s)).filterMap Path.extension?
  have counts : (statsOf s files).byExtension.map Prod.snd
      = (Ordered.ofList extensions).map fun e => (extensions.filter (id · == e)).length := by
    rw [statsOf, List.map_map]
    apply List.map_congr_left
    intro e _
    apply List.count_eq_length_filter
  rw [counts]
  apply sum_length_filter id (Ordered.increasing_ofList extensions).nodup
  intro e he
  apply Ordered.mem_ofList.mpr he

/-! ### Scans -/

theorem describes_of_yields (h : Yields root files) (s : ScanSettings) :
  Describes s root files (unitsOf s root files) (statsOf s files)
  := by
  have paths := map_path_unitsOf h s
  constructor
  · intro p
    rw [paths.mem_iff, List.mem_filter, isSource_iff]
  · apply paths.nodup_iff.mpr
    apply (h.distinct.filter _).imp
    rintro p _ ne rfl
    exact ne rfl
  · have byIdentity : ∀ u v : SourceUnit, compare u v = compare u.identity v.identity :=
      fun _ _ => rfl
    rw [unitsOf, Ordered.map_ofList byIdentity]
    apply Ordered.increasing_ofList
  · exact fun u hu => identity_of_mem_unitsOf h hu
  · intro u hu
    obtain ⟨names, way, identity, below⟩ := identity_of_mem_unitsOf h hu
    rw [Path.same, beq_iff_eq, identity, Path.components_join root way, below]
  · apply total_statsOf paths
  · apply increasing_byExtension
  · intro extension n
    apply mem_byExtension_statsOf paths
  · apply sum_byExtension

/-- The units and the statistics of a scan belong together and to the files of its walk, whatever a walk
yields below whatever root: each file with a configured extension has one unit, the identities are
made of the components below the root and stand in strict order, the identity leads from the root to
the file, and the statistics count the units, in all and for each extension. The walk of a tree is such
a walk, so this holds of what is found below a directory. -/
theorem scan_describes_walk (s : ScanSettings) (root : Path) :
  (∀ files, Yields root files → Describes s root files (unitsOf s root files) (statsOf s files))
    ∧ ∀ t : FileTree, t.WellFormed → t.isDirectory root = true →
      ∃ units, Scan.units t s root = .ok units
        ∧ Describes s root (Walk.files t s root) units (stats t s root)
  := by
  constructor
  · intro files h
    apply describes_of_yields h
  · intro t sound directory
    refine ⟨_, if_pos directory, ?_⟩
    apply describes_of_yields (Walk.yields_files sound s directory)

/-- A tree with a project of two source files, one of them in a directory of its own. -/
def sampleTree : FileTree :=
  FileTree.putFile (FileTree.putFile { workingDirectory := ["home"] }
    ["home", "project", "zoo", "Animal.java"] []) ["home", "project", "Main.java"] []

theorem sampleTree_wellFormed :
  sampleTree.WellFormed
  := by
  apply (FileTree.WellFormed.putFile _ ⟨by decide, by decide⟩ _).putFile ⟨by decide, by decide⟩
  apply FileTree.wellFormed_empty

/-- Two files below a root with two dots in it. -/
theorem yields_sample :
  Yields ⟨"lib/../src"⟩ [⟨"lib/../src//B.java"⟩, ⟨"lib/../src/a/./B.java"⟩]
  := by
  constructor
  · rw [List.forall_mem_cons, List.forall_mem_singleton]
    exact ⟨⟨["B.java"], ⟨by decide, by decide⟩, by decide⟩,
      ⟨["a", "B.java"], ⟨by decide, by decide⟩, by decide⟩⟩
  · decide

theorem scan_describes_samples :
  let s : ScanSettings := { extensions := ["java", "kt", "java"] }
  let files : List Path := [⟨"lib/../src//B.java"⟩, ⟨"lib/../src/a/./B.java"⟩]
  let root : Path := ⟨"./project/"⟩
  Describes s ⟨"lib/../src"⟩ files (unitsOf s ⟨"lib/../src"⟩ files) (statsOf s files)
    ∧ sampleTree.isDirectory root = true
    ∧ ∃ units, Scan.units sampleTree s root = .ok units
      ∧ Describes s root (Walk.files sampleTree s root) units (stats sampleTree s root)
  := by
  intro s files root
  have directory : sampleTree.isDirectory root = true := by decide +kernel
  exact ⟨(scan_describes_walk s _).1 files yields_sample, directory,
    (scan_describes_walk s root).2 sampleTree sampleTree_wellFormed directory⟩

end SourceAtlas.Scan
