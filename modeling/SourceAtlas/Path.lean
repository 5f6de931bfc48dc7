import SourceAtlas.Text.Split

/-!
# Paths

A path is the text it was written as; that text is what is printed. Two paths are compared
by their components: repeated and trailing slashes do not count, and neither does a dot
between slashes, except one at the very start of a relative path.
-/

namespace SourceAtlas

/-- A path as it was written. -/
structure Path where
  /-- The written form. -/
  text : String
  deriving DecidableEq, Repr

namespace Path

/-- What a path is made of. -/
inductive Component where
  /-- The slash that starts an absolute path. -/
  | root
  /-- A dot at the start of a relative path. -/
  | here
  /-- Two dots. -/
  | parent
  /-- The name of a file or directory. -/
  | name (text : String)
  deriving DecidableEq, Repr

namespace Component

/-- The place of the kinds of components in the order of components. -/
def rank : Component → Nat
  | root => 0
  | here => 1
  | parent => 2
  | name _ => 3

/-- The name, if the component is one. -/
def name? : Component → Option String
  | name text => some text
  | _ => none

/-- Components are ordered by kind, and names among themselves by code points. -/
instance : Ord Component where
  compare a b := (compare a.rank b.rank).then (compare (a.name?.getD "") (b.name?.getD ""))

end Component

/-- The path starts with a slash. -/
def isAbsolute (p : Path) : Bool :=
  p.text.toList.head? == some '/'

/-- The component that a stretch between slashes stands for, unless it is the first one. -/
def component? (segment : List Char) : Option Component :=
  if segment = [] || segment = ['.'] then none
  else if segment = ['.', '.'] then some .parent
  else some (.name (String.ofList segment))

/-- The components of a path. -/
def components (p : Path) : List Component :=
  match Text.splitOn '/' p.text.toList with
  | [] => []
  | first :: rest =>
    let start : Option Component :=
      if p.isAbsolute then some .root
      else if first = ['.'] then some .here
      else component? first
    start.toList ++ rest.filterMap component?

/-- The names among the components. -/
def names (p : Path) : List String :=
  p.components.filterMap Component.name?

/-- The order of lists of components: the first difference decides, and a start of a list
comes before the list. -/
def compareComponents : List Component → List Component → Ordering
  | [], [] => .eq
  | [], _ :: _ => .lt
  | _ :: _, [] => .gt
  | a :: as, b :: bs => (compare a b).then (compareComponents as bs)

/-- Paths are ordered component by component. -/
instance : Ord Path where
  compare p q := compareComponents p.components q.components

/-- The two paths have the same components. -/
def same (p q : Path) : Bool :=
  p.components == q.components

/-- The path `q` seen from `p`: an absolute `q` stays as it is. -/
def join (p q : Path) : Path :=
  if q.isAbsolute || p.text.isEmpty then q
  else if p.text.toList.getLast? == some '/' then ⟨p.text ++ q.text⟩
  else ⟨p.text ++ "/" ++ q.text⟩

/-- The last component, if it is a name. -/
def fileName? (p : Path) : Option String :=
  p.components.getLast?.bind Component.name?

/-- The part of the file name after its last dot. -/
def extension? (p : Path) : Option String :=
  p.fileName?.bind fun name =>
    (Text.splitExtension name.toList).2.map String.ofList

/-- The components of `p` below `base`, if `p` starts with the components of `base`. -/
def below? (base p : Path) : Option (List Component) :=
  if base.components.isPrefixOf p.components then
    some (p.components.drop base.components.length)
  else
    none

/-- Names joined by slashes. -/
def joinNames (names : List String) : String :=
  "/".intercalate names

/-- The identity of the file `p` below `base`: the names of the components below, joined by
slashes. -/
def identity? (base p : Path) : Option String :=
  (below? base p).bind fun components =>
    match components.filterMap Component.name? with
    | [] => none
    | names => some (joinNames names)

end Path

end SourceAtlas
