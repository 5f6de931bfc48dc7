import SourceAtlas.Parsing.Tree

/-!
# Stacks

A stack holds the states that were passed and the trees between them. Several readings of the
same text share one stack as far as they agree: below a state there may be several trees, each
with a stack below it. Every state on a stack has a mark, and equal marks mean the same stack. It
also has the offset in the text at which it was reached.
-/

namespace SourceAtlas.Parsing

/-- A stack: the state on top, and what lies below it. -/
inductive Stack where
  | node (mark state offset : Nat) (links : List (Tree × Stack))

namespace Stack

/-- The mark on top. -/
def mark : Stack → Nat
  | node mark _ _ _ => mark

/-- The state on top. -/
def state : Stack → Nat
  | node _ state _ _ => state

/-- Where the text was read to. -/
def offset : Stack → Nat
  | node _ _ offset _ => offset

/-- What lies below the top. -/
def links : Stack → List (Tree × Stack)
  | node _ _ _ links => links

/-- The ways to take `n` trees from a stack: the trees, put before those of `taken`, and the
stack below them. -/
def pop : (n : Nat) → (taken : List Tree) → Stack → List (List Tree × Stack)
  | 0, taken, s => [(taken, s)]
  | n + 1, taken, s => s.links.flatMap fun (tree, rest) => pop n (tree :: taken) rest

/-- The ways that end on different stacks, the first of each. -/
def firstEach : (seen : List Nat) → List (List Tree × Stack) → List (List Tree × Stack)
  | _, [] => []
  | seen, (trees, s) :: ways =>
    if seen.contains s.mark then firstEach seen ways
    else (trees, s) :: firstEach (s.mark :: seen) ways

mutual

/-- Two stacks with the same state on top, reached at the same offset, as one, and the next free
mark. Where both have trees that resemble each other above the same stack, the tree of the first
is kept. -/
def merge : (fuel : Nat) → (free : Nat) → Stack → Stack → Stack × Nat
  | 0, free, a, _ => (a, free)
  | fuel + 1, free, a, b =>
    let (links, free) := mergeBelow fuel (free + 1) a.links b.links
    (.node free a.state a.offset links, free + 1)

/-- Adds what lies below one stack to what lies below another. -/
def mergeBelow : (fuel : Nat) → (free : Nat) → List (Tree × Stack) → List (Tree × Stack) →
    List (Tree × Stack) × Nat
  | 0, free, links, more => (links ++ more, free)
  | _ + 1, free, links, [] => (links, free)
  | fuel + 1, free, links, (tree, rest) :: more =>
    let (links, free) := addBelow fuel free tree rest links
    mergeBelow fuel free links more

/-- Adds a tree and a stack to what lies below a state. -/
def addBelow : (fuel : Nat) → (free : Nat) → Tree → Stack → List (Tree × Stack) →
    List (Tree × Stack) × Nat
  | 0, free, tree, rest, links => (links ++ [(tree, rest)], free)
  | _ + 1, free, tree, rest, [] => ([(tree, rest)], free)
  | fuel + 1, free, tree, rest, (known, other) :: links =>
    if tree.resembles known && rest.mark == other.mark then ((known, other) :: links, free)
    else if tree.resembles known && rest.state == other.state && rest.offset == other.offset then
      let (joined, free) := merge fuel free other rest
      ((known, joined) :: links, free)
    else
      let (links, free) := addBelow fuel free tree rest links
      ((known, other) :: links, free)

end

end Stack

end SourceAtlas.Parsing
