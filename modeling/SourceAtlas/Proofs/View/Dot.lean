import SourceAtlas.Proofs.Lists
import SourceAtlas.Proofs.Ordered
import SourceAtlas.Proofs.View.Quoting

/-!
# What can be read off a DOT text

A DOT text falls into lines, because texts in it have no line breaks of their own, and the lines
fall into blocks, because only the lines inside of a block are indented. The block of a package,
the block of the other nodes and the block of the edges begin differently, and from each line of
a block its node or edge can be read off. The blocks hold the nodes sorted stably by their packages
(`grouped_eq`).
-/

namespace SourceAtlas

/-- What a diagram tells about a node. -/
structure Drawn where
  package : Option String
  id : String
  label : String
  isInterface : Bool
  isSeed : Bool
  deriving DecidableEq, Repr

/-- What a diagram tells about a node that stands in the given package. -/
def ViewNode.drawnIn (package : Option String) (n : ViewNode) : Drawn where
  package := package
  id := n.id
  label := n.label
  isInterface := n.isInterface
  isSeed := n.isSeed

/-- What a diagram tells about a node. -/
def ViewNode.drawn (n : ViewNode) : Drawn :=
  n.drawnIn n.package

theorem ViewNode.map_drawnIn {package : Option String} {ns : List ViewNode}
    (h : ∀ n ∈ ns, n.package = package) :
  ns.map (drawnIn package) = ns.map drawn
  := by
  apply List.map_congr_left
  intro n hn
  rw [drawn, h n hn]

namespace View

/-! ### The order of the nodes -/

/-- Nodes of the package `p` may be drawn above nodes of the package `q`: packages come in their
order, and what has no package comes last. -/
def isAbove : Option String → Option String → Bool
  | some p, some q => p ≤ q
  | some _, none => true
  | none, some _ => false
  | none, none => true

/-- The nodes in the order in which they are drawn: sorted by their packages, and nodes of one
package in the order of the view. -/
def grouped (v : View) : List ViewNode :=
  v.nodes.mergeSort fun n m => isAbove n.package m.package

theorem isAbove_trans (a b c : Option String) (hab : isAbove a b = true) (hbc : isAbove b c = true) :
  isAbove a c = true
  := by
  cases a <;> cases b <;> cases c <;> simp_all [isAbove]
  apply String.le_trans hab hbc

theorem isAbove_total (a b : Option String) :
  (isAbove a b || isAbove b a) = true
  := by
  cases a <;> cases b <;> simp [isAbove]
  apply String.le_total

theorem isAbove_antisymm (a b : Option String) (hab : isAbove a b = true)
    (hba : isAbove b a = true) :
  a = b
  := by
  cases a <;> cases b <;> simp_all [isAbove]
  apply String.le_antisymm hab hba

/-- The packages of the nodes in order, and then no package. -/
def shelves (v : View) : List (Option String) :=
  v.packages.map some ++ [none]

theorem pairwise_shelves (v : View) :
  v.shelves.Pairwise fun a b => isAbove a b = true
  := by
  apply List.pairwise_append.mpr
  and_intros
  · apply List.pairwise_map.mpr
    apply (Ordered.increasing_ofList _).imp
    intro p q before
    have below : p < q := compareOfLessAndEq_eq_lt.mp before
    simpa [isAbove] using String.not_lt.mp (String.lt_asymm below)
  · apply List.pairwise_singleton
  · intro a ha b hb
    obtain ⟨p, -, rfl⟩ := List.mem_map.mp ha
    obtain rfl := List.mem_singleton.mp hb
    rfl

theorem nodup_shelves (v : View) :
  v.shelves.Nodup
  := by
  have packages : v.packages.Nodup := (Ordered.increasing_ofList _).nodup
  simpa [shelves, List.nodup_append] using packages.map (Option.some_injective String)

theorem package_mem_shelves {v : View} {n : ViewNode} (hn : n ∈ v.nodes) :
  n.package ∈ v.shelves
  := by
  cases package : n.package with
  | none => simp [shelves]
  | some p =>
    have listed : ∃ n ∈ v.nodes, n.package = some p := ⟨n, hn, package⟩
    simpa [shelves, packages] using listed

/-- The nodes are drawn package after package, and those without a package below them. -/
theorem grouped_eq (v : View) :
  v.grouped = v.packages.flatMap (fun p => v.nodes.filter (·.package == some p))
    ++ v.nodes.filter (·.package.isNone)
  := by
  rw [grouped, mergeSort_eq_flatMap_filter ViewNode.package isAbove_trans isAbove_total
    isAbove_antisymm (pairwise_shelves v) (nodup_shelves v) (fun _ => package_mem_shelves),
    shelves, List.flatMap_append, List.flatMap_map, List.flatMap_singleton]
  congr 1
  apply List.filter_congr
  intro n _
  cases n.package <;> rfl

/-! ### Nodes and edges -/

/-- What follows the label in the statement of a node. -/
def closing (isInterface isSeed : Bool) : String :=
  ", shape=" ++ (if isInterface then "component" else "record")
    ++ (if isSeed then ", style=filled, fillcolor=lightcoral" else "") ++ "];"

theorem closing_inj {a a' b b' : Bool} (h : (closing a b).toList = (closing a' b').toList) :
  a = a' ∧ b = b'
  := by
  cases a <;> cases a' <;> cases b <;> cases b' <;> simp_all [closing]

theorem toList_dotNode (n : ViewNode) :
  (dotNode n).toList = (quote n.id).toList ++ (" [label=\"".toList
    ++ (escaped (!n.isInterface) n.label.toList
      ++ '"' :: (closing n.isInterface n.isSeed).toList))
  := by
  simp [dotNode, closing]

theorem dotNode_inj {n m : ViewNode} (h : dotNode n = dotNode m) (package : Option String) :
  n.drawnIn package = m.drawnIn package
  := by
  have texts := congrArg String.toList h
  rw [toList_dotNode, toList_dotNode] at texts
  obtain ⟨ids, texts⟩ := quote_append_inj texts
  obtain ⟨closings, labels⟩ := escaped_append_inj (List.append_cancel_left texts)
  obtain ⟨kinds, seeds⟩ := closing_inj closings
  have labels := String.toList_inj.mp (labels (by rw [kinds]))
  rw [ViewNode.drawnIn, ViewNode.drawnIn, ids, labels, kinds, seeds]

theorem edgeStyle_injective :
  Function.Injective edgeStyle
  := by
  intro a b h
  cases a <;> cases b <;> simp_all [edgeStyle]

theorem toList_dotEdge (e : Edge) :
  (dotEdge e).toList = (quote e.source).toList ++ (" -> ".toList ++ ((quote e.target).toList
    ++ (" [" ++ edgeStyle e.kind ++ "];").toList))
  := by
  simp [dotEdge]

theorem dotEdge_injective :
  Function.Injective dotEdge
  := by
  intro e e' h
  have texts := congrArg String.toList h
  rw [toList_dotEdge, toList_dotEdge] at texts
  obtain ⟨sources, texts⟩ := quote_append_inj texts
  obtain ⟨targets, styles⟩ := quote_append_inj (List.append_cancel_left texts)
  have kinds : e.kind = e'.kind := by
    apply edgeStyle_injective
    apply String.toList_inj.mp
    simpa using styles
  cases e
  cases e'
  simp_all

theorem dotNode_ne_dotEdge (n : ViewNode) (e : Edge) :
  dotNode n ≠ dotEdge e
  := by
  intro h
  have texts := congrArg String.toList h
  rw [toList_dotNode, toList_dotEdge] at texts
  obtain ⟨-, texts⟩ := quote_append_inj texts
  simp at texts

/-! ### Blocks -/

/-- The lines that stand together: those of a package, of the nodes without a package, or of the
edges. The last two blocks are left out when they are empty. -/
inductive Block where
  | cluster (package : String) (nodes : List ViewNode)
  | loose (first : ViewNode) (rest : List ViewNode)
  | edges (first : Edge) (rest : List Edge)
  deriving DecidableEq, Repr

namespace Block

/-- The lines of a block, below the blank line that opens it. -/
def lines : Block → List String
  | cluster p nodes =>
    ("    subgraph " ++ quote ("cluster_" ++ p) ++ " \x7b") ::
      ("        label=" ++ quote p ++ ";") :: "        style=rounded;" ::
      (nodes.map (fun n => "        " ++ dotNode n) ++ ["    \x7d"])
  | loose n rest => (n :: rest).map fun n => "    " ++ dotNode n
  | edges e rest => (e :: rest).map fun e => "    " ++ dotEdge e

/-- What a block tells about nodes. -/
def drawn : Block → List Drawn
  | cluster p nodes => nodes.map (ViewNode.drawnIn (some p))
  | loose n rest => (n :: rest).map (ViewNode.drawnIn none)
  | edges _ _ => []

/-- The edges that a block shows. -/
def shown : Block → List Edge
  | edges e rest => e :: rest
  | _ => []

theorem subgraph_ne_dotNode (p : String) (n : ViewNode) :
  "    subgraph " ++ quote ("cluster_" ++ p) ++ " \x7b" ≠ "    " ++ dotNode n
  := by
  intro h
  have texts := congrArg String.toList h
  simp [dotNode] at texts

theorem subgraph_ne_dotEdge (p : String) (e : Edge) :
  "    subgraph " ++ quote ("cluster_" ++ p) ++ " \x7b" ≠ "    " ++ dotEdge e
  := by
  intro h
  have texts := congrArg String.toList h
  simp [dotEdge] at texts

theorem label_inj {p p' : String}
    (h : "        label=" ++ quote p ++ ";" = "        label=" ++ quote p' ++ ";") :
  p = p'
  := by
  have texts := congrArg String.toList h
  simp only [String.toList_append, List.append_assoc] at texts
  exact (quote_append_inj (List.append_cancel_left texts)).1

theorem map_dotNode_inj {indent : String} {ns ms : List ViewNode}
    (h : ns.map (fun n => indent ++ dotNode n) = ms.map (fun n => indent ++ dotNode n))
    (package : Option String) :
  ns.map (ViewNode.drawnIn package) = ms.map (ViewNode.drawnIn package)
  := by
  apply map_eq_of_map_eq _ h
  intro n m same
  apply dotNode_inj ((String.append_right_inj indent).mp same)

/-- A block can be read off its lines. -/
theorem lines_inj {b b' : Block} (h : b.lines = b'.lines) :
  b.drawn = b'.drawn ∧ b.shown = b'.shown
  := by
  cases b with
  | cluster p ns =>
    cases b' with
    | cluster p' ns' =>
      obtain ⟨-, below⟩ := List.cons.inj h
      obtain ⟨labels, rest⟩ := List.cons.inj below
      obtain rfl := label_inj labels
      have nodes := List.append_cancel_right (List.cons.inj rest).2
      exact ⟨map_dotNode_inj nodes (some p), rfl⟩
    | loose n' rest' => exact absurd (List.cons.inj h).1 (subgraph_ne_dotNode p n')
    | edges e' rest' => exact absurd (List.cons.inj h).1 (subgraph_ne_dotEdge p e')
  | loose n rest =>
    cases b' with
    | cluster p' ns' => exact absurd (List.cons.inj h).1.symm (subgraph_ne_dotNode p' n)
    | loose n' rest' => exact ⟨map_dotNode_inj h none, rfl⟩
    | edges e' rest' =>
      have first := (String.append_right_inj _).mp (List.cons.inj h).1
      exact absurd first (dotNode_ne_dotEdge n e')
  | edges e rest =>
    cases b' with
    | cluster p' ns' => exact absurd (List.cons.inj h).1.symm (subgraph_ne_dotEdge p' e)
    | loose n' rest' =>
      have first := (String.append_right_inj _).mp (List.cons.inj h).1
      exact absurd first.symm (dotNode_ne_dotEdge n' e)
    | edges e' rest' =>
      use rfl
      apply List.map_injective_iff.mpr _ h
      intro e e' same
      apply dotEdge_injective ((String.append_right_inj _).mp same)

/-- The block of the nodes without a package, if there are any. -/
def ofLoose : List ViewNode → List Block
  | [] => []
  | n :: rest => [loose n rest]

/-- The block of the edges, if there are any. -/
def ofEdges : List Edge → List Block
  | [] => []
  | e :: rest => [edges e rest]

end Block

/-- The blocks of a diagram. -/
def blocks (v : View) : List Block :=
  v.packages.map (fun p => .cluster p (v.nodes.filter (·.package == some p)))
    ++ Block.ofLoose (v.nodes.filter (·.package.isNone))
    ++ Block.ofEdges v.edges

/-- The lines above the blocks. -/
def heading : List String :=
  ["digraph refgraph \x7b", "    rankdir=BT;",
    "    node [fontname=\"Helvetica\", fontsize=10];",
    "    edge [fontname=\"Helvetica\", fontsize=8];"]

/-- The blocks of a diagram, each under a blank line, and the last line. -/
def body (bs : List Block) : List String :=
  bs.flatMap (fun b => "" :: b.lines) ++ ["\x7d"]

theorem dotLines_eq (v : View) :
  v.dotLines = heading ++ body v.blocks
  := by
  have loose (ns : List ViewNode) : paragraph (ns.map fun n => "    " ++ dotNode n)
      = (Block.ofLoose ns).flatMap fun b => "" :: b.lines := by
    cases ns <;> simp [paragraph, Block.ofLoose, Block.lines]
  have edges (es : List Edge) : paragraph (es.map fun e => "    " ++ dotEdge e)
      = (Block.ofEdges es).flatMap fun b => "" :: b.lines := by
    cases es <;> simp [paragraph, Block.ofEdges, Block.lines]
  have clusters : v.packages.flatMap
        (fun p => dotCluster p (v.nodes.filter (·.package == some p)))
      = (v.packages.map fun p => Block.cluster p (v.nodes.filter (·.package == some p))).flatMap
          fun b => "" :: b.lines := by
    rw [List.flatMap_map]
    rfl
  rw [dotLines, loose, edges, clusters, body, blocks, List.flatMap_append, List.flatMap_append]
  simp only [heading, List.append_assoc]

theorem flatMap_shown_blocks (v : View) :
  v.blocks.flatMap Block.shown = v.edges
  := by
  rw [blocks, List.flatMap_append, List.flatMap_append, List.flatMap_map]
  have edges : (Block.ofEdges v.edges).flatMap Block.shown = v.edges := by
    cases v.edges <;> simp [Block.ofEdges, Block.shown]
  have loose (ns : List ViewNode) : (Block.ofLoose ns).flatMap Block.shown = [] := by
    cases ns <;> simp [Block.ofLoose, Block.shown]
  rw [edges, loose]
  simp [Block.shown]

theorem flatMap_drawn_blocks (v : View) :
  v.blocks.flatMap Block.drawn = v.grouped.map ViewNode.drawn
  := by
  have clusters (p : String) : (Block.cluster p (v.nodes.filter (·.package == some p))).drawn
      = (v.nodes.filter (·.package == some p)).map ViewNode.drawn := by
    apply ViewNode.map_drawnIn
    intro n hn
    simpa using (List.mem_filter.mp hn).2
  have loose (ns : List ViewNode) : (Block.ofLoose ns).flatMap Block.drawn
      = ns.map (ViewNode.drawnIn none) := by
    cases ns <;> simp [Block.ofLoose, Block.drawn]
  have outside : (v.nodes.filter (·.package.isNone)).map (ViewNode.drawnIn none)
      = (v.nodes.filter (·.package.isNone)).map ViewNode.drawn := by
    apply ViewNode.map_drawnIn
    intro n hn
    simpa using (List.mem_filter.mp hn).2
  have edges : (Block.ofEdges v.edges).flatMap Block.drawn = [] := by
    cases v.edges <;> simp [Block.ofEdges, Block.drawn]
  rw [blocks, List.flatMap_append, List.flatMap_append, List.flatMap_map, edges, loose, outside,
    grouped_eq, List.map_append, List.map_flatMap, List.append_nil]
  simp only [clusters]

/-! ### Lines -/

/-- The line stands inside of a block. -/
def Indented (line : String) : Prop :=
  line.toList.head? = some ' '

theorem Block.indented_of_mem {b : Block} {line : String} (h : line ∈ b.lines) :
  Indented line
  := by
  cases b with
  | cluster p ns =>
    simp only [lines, List.mem_append, List.mem_cons, List.mem_map, List.not_mem_nil,
      or_false] at h
    obtain rfl | rfl | rfl | ⟨n, -, rfl⟩ | rfl := h <;> simp [Indented]
  | loose n rest =>
    obtain ⟨m, -, rfl⟩ := List.mem_map.mp h
    simp [Indented]
  | edges e rest =>
    obtain ⟨e', -, rfl⟩ := List.mem_map.mp h
    simp [Indented]

theorem newline_not_mem_dotNode (n : ViewNode) :
  '\n' ∉ (dotNode n).toList
  := by
  have closings : '\n' ∉ (closing n.isInterface n.isSeed).toList := by
    cases n.isInterface <;> cases n.isSeed <;> simp [closing]
  rw [toList_dotNode]
  simp [newline_not_mem_escaped, closings]

theorem newline_not_mem_dotEdge (e : Edge) :
  '\n' ∉ (dotEdge e).toList
  := by
  have styles : '\n' ∉ (edgeStyle e.kind).toList := by
    cases e.kind <;> simp [edgeStyle]
  rw [toList_dotEdge]
  simp [newline_not_mem_escaped, styles]

theorem Block.newline_not_mem {b : Block} {line : String} (h : line ∈ b.lines) :
  '\n' ∉ line.toList
  := by
  cases b with
  | cluster p ns =>
    simp only [lines, List.mem_append, List.mem_cons, List.mem_map, List.not_mem_nil,
      or_false] at h
    obtain rfl | rfl | rfl | ⟨n, -, rfl⟩ | rfl := h
    · simp [newline_not_mem_escaped]
    · simp [newline_not_mem_escaped]
    · simp
    · simp [newline_not_mem_dotNode]
    · simp
  | loose n rest =>
    obtain ⟨m, -, rfl⟩ := List.mem_map.mp h
    simp [newline_not_mem_dotNode]
  | edges e rest =>
    obtain ⟨e', -, rfl⟩ := List.mem_map.mp h
    simp [newline_not_mem_dotEdge]

theorem newline_not_mem_dotLines {v : View} {line : String} (h : line ∈ v.dotLines) :
  '\n' ∉ line.toList
  := by
  rw [dotLines_eq] at h
  obtain above | inside := List.mem_append.mp h
  · have plain : ∀ line ∈ heading, '\n' ∉ line.toList := by simp [heading]
    apply plain line above
  · obtain inside | last := List.mem_append.mp inside
    · obtain ⟨b, -, hb⟩ := List.mem_flatMap.mp inside
      obtain rfl | hb := List.mem_cons.mp hb
      · simp
      · apply Block.newline_not_mem hb
    · obtain rfl := List.mem_singleton.mp last
      simp

/-! ### Reading a text -/

/-- A text is cut into lines by its line breaks. -/
theorem lines_injective {xs ys : List String} (hx : ∀ line ∈ xs, '\n' ∉ line.toList)
    (hy : ∀ line ∈ ys, '\n' ∉ line.toList)
    (h : String.join (xs.map (· ++ "\n")) = String.join (ys.map (· ++ "\n"))) :
  xs = ys
  := by
  have texts : xs.flatMap (fun x => x.toList ++ ['\n'])
      = ys.flatMap (fun y => y.toList ++ ['\n']) := by
    simpa [List.flatMap_map] using congrArg String.toList h
  clear h
  induction xs generalizing ys with
  | nil =>
    cases ys with
    | nil => rfl
    | cons y ys => simp at texts
  | cons x xs ih =>
    cases ys with
    | nil => simp at texts
    | cons y ys =>
      simp only [List.flatMap_cons, List.append_assoc, List.singleton_append] at texts
      have plain {line : String} (h : '\n' ∉ line.toList) : ∀ c ∈ line.toList, c ≠ '\n' := by
        rintro c hc rfl
        exact h hc
      obtain ⟨first, rest⟩ := append_inj_of_stop (plain (hx x List.mem_cons_self))
        (plain (hy y List.mem_cons_self)) (by simp) (by simp) texts
      rw [String.toList_inj.mp first, ih (fun z hz => hx z (List.mem_cons_of_mem x hz))
        (fun z hz => hy z (List.mem_cons_of_mem y hz)) (List.cons.inj rest).2]

theorem body_cons (b : Block) (bs : List Block) :
  body (b :: bs) = "" :: (b.lines ++ body bs)
  := by
  simp [body]

theorem head_body {bs : List Block} {line : String} (h : line ∈ (body bs).head?) :
  ¬ Indented line
  := by
  cases bs with
  | nil =>
    obtain rfl := Option.mem_some_iff.mp h
    simp [Indented]
  | cons b bs =>
    obtain rfl := Option.mem_some_iff.mp h
    simp [Indented]

/-- The lines below the heading are cut into blocks by those that are not indented. -/
theorem body_inj {bs bs' : List Block} (h : body bs = body bs') :
  bs.map Block.lines = bs'.map Block.lines
  := by
  induction bs generalizing bs' with
  | nil =>
    cases bs' with
    | nil => rfl
    | cons b' bs' => simp [body] at h
  | cons b bs ih =>
    cases bs' with
    | nil => simp [body] at h
    | cons b' bs' =>
      simp only [body_cons] at h
      obtain ⟨first, rest⟩ := append_inj_of_stop (fun _ => Block.indented_of_mem)
        (fun _ => Block.indented_of_mem) (fun _ => head_body) (fun _ => head_body)
        (List.cons.inj h).2
      rw [List.map_cons, List.map_cons, first, ih rest]

/-- A DOT text shows all that it is made from: two diagrams with the same text have the same edges
in the same order. Sorted by their packages, with those of one package in their order and those
without a package last, they also have the same nodes, as far as package, id, label, shape and seed
flag go. -/
theorem toDot_shows_all (v w : View) (same : v.toDot = w.toDot) :
  v.edges = w.edges ∧ v.grouped.map ViewNode.drawn = w.grouped.map ViewNode.drawn
  := by
  have lines : v.dotLines = w.dotLines :=
    lines_injective (fun _ => newline_not_mem_dotLines) (fun _ => newline_not_mem_dotLines) same
  rw [dotLines_eq, dotLines_eq] at lines
  have blocks := body_inj (List.append_cancel_left lines)
  constructor
  · have shown := map_eq_of_map_eq (fun _ _ same => (Block.lines_inj same).2) blocks
    rw [← flatMap_shown_blocks, ← flatMap_shown_blocks, List.flatMap_def, List.flatMap_def, shown]
  · have drawn := map_eq_of_map_eq (fun _ _ same => (Block.lines_inj same).1) blocks
    rw [← flatMap_drawn_blocks, ← flatMap_drawn_blocks, List.flatMap_def, List.flatMap_def, drawn]

/-- Diagrams that list their nodes in different orders, with different kinds of the same shape,
can have the same text. -/
theorem toDot_shows_all_reordered :
  let dog : ViewNode := { id := "a\"b", label := "x|y\n", package := some "p", isSeed := true }
  let pet : ViewNode := { id := "];", label := "\x7d", package := some "o" }
  let edge : Edge := ⟨"a\"b", "];", .extending⟩
  let v : View := ⟨[{ dog with kind := some .classType }, { pet with kind := some .interface }],
    [edge]⟩
  let w : View := ⟨[{ pet with kind := some .annotationType }, { dog with kind := some .enum }],
    [edge]⟩
  v.nodes ≠ w.nodes ∧ v.toDot = w.toDot
    ∧ v.grouped.map ViewNode.drawn = w.grouped.map ViewNode.drawn
  := by
  intro dog pet edge v w
  have same : v.toDot = w.toDot := by decide +kernel
  exact ⟨by decide, same, (toDot_shows_all v w same).2⟩

end View

end SourceAtlas
