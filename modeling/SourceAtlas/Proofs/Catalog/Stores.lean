import SourceAtlas.Proofs.Catalog.Origin
import SourceAtlas.Proofs.Path

/-!
# The stores behind a catalog

A catalog can be kept in three stores: a table of records by full name, a table of the names that
each file declared, and the list of relationships. A declaration that comes in replaces the record
of its name and is added to the names of its file. The catalog, which logs all declarations, answers
as these stores do (`build_answers`): one declaration preserves this (`Simulates.record`), and so
do whole units and every run of units (`simulates_build`).
-/

namespace SourceAtlas

open Ordered (Increasing)
open Std

/-! ### Tables -/

/-- Entries in increasing order of their keys. -/
structure Table (κ ν : Type) [Ord κ] where
  entries : List (κ × ν) := []
  increasing : Increasing (entries.map Prod.fst) := by exact List.Pairwise.nil

namespace Table

variable {κ ν : Type} [Ord κ]

/-- The value of the first entry whose key compares equal. -/
def find? : List (κ × ν) → κ → Option ν
  | [], _ => none
  | (k', v) :: rest, k => if compare k k' = .eq then some v else find? rest k

/-- The entries where that of a key has a new value, made from its old one if there is one. A key
that is there stays as it was first written. -/
def put (k : κ) (value : Option ν → ν) : List (κ × ν) → List (κ × ν)
  | [] => [(k, value none)]
  | (k', v) :: rest =>
    match compare k k' with
    | .lt => (k, value none) :: (k', v) :: rest
    | .eq => (k', value (some v)) :: rest
    | .gt => (k', v) :: put k value rest

theorem keys_put (k : κ) (value : Option ν → ν) (entries : List (κ × ν)) :
  (put k value entries).map Prod.fst = Ordered.insert k (entries.map Prod.fst)
  := by
  fun_induction put k value entries with
  | case1 => rfl
  | case2 k' v rest before => simp [Ordered.insert, before]
  | case3 k' v rest same => simp [Ordered.insert, same]
  | case4 k' v rest after ih => simp [Ordered.insert, after, ih]

/-- What comes before all keys is not found. -/
theorem find?_of_lt {k : κ} {entries : List (κ × ν)}
    (below : ∀ k' ∈ entries.map Prod.fst, compare k k' = .lt) :
  find? entries k = none
  := by
  induction entries with
  | nil => rfl
  | cons entry rest ih =>
    obtain ⟨first, below⟩ := List.forall_mem_cons.mp below
    rw [find?, if_neg (by simp [first]), ih below]

section Lookup

variable [TransOrd κ]

theorem find?_put {k : κ} (value : Option ν → ν) {entries : List (κ × ν)}
    (increasing : Increasing (entries.map Prod.fst)) (k' : κ) :
  find? (put k value entries) k'
    = if compare k' k = .eq then some (value (find? entries k)) else find? entries k'
  := by
  fun_induction put k value entries with
  | case1 => rfl
  | case2 k₁ v rest before =>
    have missing : find? ((k₁, v) :: rest) k = none := by
      apply find?_of_lt
      intro k₂ hk
      obtain rfl | later := List.mem_cons.mp hk
      · apply before
      · apply TransCmp.lt_trans before ((List.pairwise_cons.mp increasing).1 k₂ later)
    rw [missing, find?]
  | case3 k₁ v rest same =>
    rw [find?, find?, if_pos same, find?, TransCmp.congr_right same]
    split <;> rfl
  | case4 k₁ v rest after ih =>
    have further : find? ((k₁, v) :: rest) k = find? rest k := by
      rw [find?, if_neg (by simp [after])]
    rw [further, find?, find?, ih (List.pairwise_cons.mp increasing).2]
    by_cases here : compare k' k₁ = .eq
    · have apart : compare k' k ≠ .eq := by
        intro same
        rw [TransCmp.congr_left same, after] at here
        contradiction
      rw [if_pos here, if_neg apart, if_pos here]
    · rw [if_neg here, if_neg here]

/-- In increasing order, the values are those that are found under the keys. -/
theorem values_eq {entries : List (κ × ν)} (increasing : Increasing (entries.map Prod.fst)) :
  entries.map Prod.snd = (entries.map Prod.fst).filterMap (find? entries)
  := by
  induction entries with
  | nil => rfl
  | cons entry rest ih =>
    obtain ⟨k, v⟩ := entry
    obtain ⟨above, increasing⟩ := List.pairwise_cons.mp increasing
    have first : find? ((k, v) :: rest) k = some v := by
      rw [find?, if_pos ReflCmp.compare_self]
    rw [List.map_cons, List.map_cons, List.filterMap_cons_some first, ih increasing]
    apply congrArg (v :: ·)
    apply List.filterMap_congr
    intro k' later
    rw [find?, if_neg]
    rw [OrientedCmp.gt_of_lt (above k' later)]
    simp

end Lookup

/-- The value of a key. -/
def get? (t : Table κ ν) (k : κ) : Option ν :=
  find? t.entries k

/-- The keys in order. -/
def keys (t : Table κ ν) : List κ :=
  t.entries.map Prod.fst

/-- The values in the order of their keys. -/
def values (t : Table κ ν) : List ν :=
  t.entries.map Prod.snd

variable [TransOrd κ]

/-- The table in which a key has a new value. -/
def alter (t : Table κ ν) (k : κ) (value : Option ν → ν) : Table κ ν where
  entries := put k value t.entries
  increasing := keys_put k value t.entries ▸ Ordered.increasing_insert t.increasing k

theorem get?_alter_of_eq (t : Table κ ν) {k k' : κ} (value : Option ν → ν)
    (same : compare k' k = .eq) :
  (t.alter k value).get? k' = some (value (t.get? k))
  := (find?_put value t.increasing k').trans (if_pos same)

theorem get?_alter_of_ne (t : Table κ ν) {k k' : κ} (value : Option ν → ν)
    (apart : compare k' k ≠ .eq) :
  (t.alter k value).get? k' = t.get? k'
  := (find?_put value t.increasing k').trans (if_neg apart)

theorem keys_alter (t : Table κ ν) (k : κ) (value : Option ν → ν) :
  (t.alter k value).keys = Ordered.insert k t.keys
  := keys_put k value t.entries

theorem values_eq_filterMap (t : Table κ ν) :
  t.values = t.keys.filterMap t.get?
  := values_eq t.increasing

end Table

/-! ### Stores -/

/-- The records by full name, the declared names by file, and the relationships. -/
structure Stores where
  types : Table String TypeInfo := {}
  byFile : Table Path (List String) := {}
  relationships : List Relationship := []

namespace Stores

/-- Takes in the record of a declaration. -/
def record (s : Stores) (info : TypeInfo) : Stores :=
  { s with
    byFile := s.byFile.alter info.origin fun names => names.getD [] ++ [info.fullName]
    types := s.types.alter info.fullName fun _ => info }

/-- Takes in the declarations of a unit that was read from `origin`. -/
def addUnit (s : Stores) (u : ParsedUnit) (origin : Path) : Stores :=
  { (u.infos origin).foldl record s with
    relationships := s.relationships ++ u.relationships }

/-- The stores that take in some units, each read from a file. -/
def build (units : List (ParsedUnit × Path)) : Stores :=
  units.foldl (fun s u => s.addUnit u.1 u.2) {}

/-- The first name of a file whose record still comes from that file. -/
def identityForFile? (s : Stores) (path : Path) : Option String :=
  (s.byFile.get? path).bind fun names => names.find? fun name =>
    (s.types.get? name).any (·.origin.same path)

/-- The stores hold what can be looked up in the catalog. -/
structure Simulates (s : Stores) (c : Catalog) : Prop where
  get? : ∀ x, s.types.get? x = c.get? x
  identities : s.types.keys = c.identities
  names : ∀ path, (s.byFile.get? path).getD []
    = (c.declared.filter (·.origin.same path)).map TypeInfo.fullName
  files : s.byFile.keys = c.files
  relationships : s.relationships = c.relationships

namespace Simulates

variable {s : Stores} {c : Catalog}

theorem get?_record (h : s.Simulates c) (info : TypeInfo) (x : String) :
  (s.record info).types.get? x = Catalog.get? { c with declared := c.declared ++ [info] } x
  := by
  rw [Stores.record, Catalog.get?, List.reverse_concat]
  by_cases same : info.fullName = x
  · subst same
    rw [Table.get?_alter_of_eq _ _ compare_self, List.find?_cons_of_pos (by simp)]
  · rw [Table.get?_alter_of_ne, List.find?_cons_of_neg (by simpa using same), h.get?, Catalog.get?]
    rw [LawfulEqOrd.compare_eq_iff_eq.ne]
    exact Ne.symm same

theorem names_record (h : s.Simulates c) (info : TypeInfo) (path : Path) :
  ((s.record info).byFile.get? path).getD []
    = ((c.declared ++ [info]).filter (·.origin.same path)).map TypeInfo.fullName
  := by
  rw [Stores.record, List.filter_append, List.map_append]
  by_cases same : path.components = info.origin.components
  · have alike (q : Path) : q.same info.origin = q.same path := by
      rw [Path.same, Path.same, same]
    rw [Table.get?_alter_of_eq _ _ (Path.compare_eq_eq_iff.mpr same), Option.getD_some, h.names]
    simp only [alike]
    simp [Path.same_iff, same]
  · rw [Table.get?_alter_of_ne _ _ (mt Path.compare_eq_eq_iff.mp same), h.names]
    simp [Path.same_iff, Ne.symm same]

/-- One declaration is stored as it is logged. -/
theorem record (h : s.Simulates c) (info : TypeInfo) :
  (s.record info).Simulates { c with declared := c.declared ++ [info] }
  where
  get? := h.get?_record info
  identities := by
    rw [Stores.record, Table.keys_alter, h.identities, Catalog.identities, Catalog.identities]
    change Ordered.ofList (info.fullName :: c.declared.map TypeInfo.fullName) = _
    apply Ordered.ofList_congr
    simp [or_comm]
  names := h.names_record info
  files := by
    rw [Stores.record, Table.keys_alter, h.files, Catalog.files, Catalog.files, List.map_append,
      List.reverse_append]
    rfl
  relationships := h.relationships

theorem foldl_record (h : s.Simulates c) (infos : List TypeInfo) :
  (infos.foldl Stores.record s).Simulates { c with declared := c.declared ++ infos }
  := by
  induction infos generalizing s c with
  | nil => simpa using h
  | cons info infos ih => simpa using ih (h.record info)

theorem addUnit (h : s.Simulates c) (u : ParsedUnit) (origin : Path) :
  (s.addUnit u origin).Simulates (c.addUnit u origin)
  := by
  have declared := h.foldl_record (u.infos origin)
  constructor
  · apply declared.get?
  · apply declared.identities
  · apply declared.names
  · apply declared.files
  · rw [Stores.addUnit, Catalog.addUnit, h.relationships]

theorem foldl_addUnit (h : s.Simulates c) (units : List (ParsedUnit × Path)) :
  (units.foldl (fun s u => s.addUnit u.1 u.2) s).Simulates
    (units.foldl (fun c u => c.addUnit u.1 u.2) c)
  := by
  induction units generalizing s c with
  | nil => apply h
  | cons u units ih => apply ih (h.addUnit u.1 u.2)

/-- The records of the store are those of the catalog, in the same order. -/
theorem values_eq (h : s.Simulates c) :
  s.types.values = c.types
  := by
  rw [Table.values_eq_filterMap, h.identities, Catalog.types]
  apply List.filterMap_congr
  intro x _
  apply h.get?

theorem identityForFile?_eq (h : s.Simulates c) (path : Path) :
  s.identityForFile? path = c.identityForFile? path
  := by
  rw [Stores.identityForFile?, Catalog.identityForFile?, ← h.names]
  simp only [h.get?]
  cases s.byFile.get? path with
  | none => rfl
  | some names => rfl

end Simulates

theorem simulates_empty :
  Simulates {} Catalog.empty
  where
  get? _ := rfl
  identities := rfl
  names _ := rfl
  files := rfl
  relationships := rfl

/-- Whatever units come in, the three stores hold what the log of the catalog gives. -/
theorem simulates_build (units : List (ParsedUnit × Path)) :
  (build units).Simulates (Catalog.build units)
  := simulates_empty.foldl_addUnit units

/-- After any units, what is looked up in the stores is what the catalog answers. -/
theorem build_answers (units : List (ParsedUnit × Path)) :
  let s := build units
  let c := Catalog.build units
  s.types.get? = c.get? ∧ s.types.keys = c.identities ∧ s.types.values = c.types
    ∧ s.identityForFile? = c.identityForFile? ∧ s.byFile.keys = c.files
    ∧ s.relationships = c.relationships
  := by
  intro s c
  have simulates : s.Simulates c := simulates_build units
  and_intros
  · funext x
    apply simulates.get?
  · apply simulates.identities
  · apply simulates.values_eq
  · funext path
    apply simulates.identityForFile?_eq
  · apply simulates.files
  · apply simulates.relationships

end Stores

end SourceAtlas
