/-!
# Trees

What has been read: tokens, and rules with what they were read from, all with the stretch of
text that they cover.
-/

namespace SourceAtlas.Parsing

/-- A tree over a text. -/
inductive Tree where
  | leaf (token start stop : Nat)
  | node (rule start stop : Nat) (children : List Tree)
  deriving Repr

namespace Tree

/-- Where the tree starts. -/
def start : Tree → Nat
  | leaf _ start _ => start
  | node _ start _ _ => start

/-- Where the tree stops. -/
def stop : Tree → Nat
  | leaf _ _ stop => stop
  | node _ _ stop _ => stop

/-- The children of a tree. -/
def children : Tree → List Tree
  | leaf _ _ _ => []
  | node _ _ _ children => children

/-- The tree of a rule over its children. Without children it covers nothing at `place`. -/
def ofChildren (rule place : Nat) (children : List Tree) : Tree :=
  node rule ((children.head?.map start).getD place) ((children.getLast?.map stop).getD place)
    children

/-- Both trees are of one token or rule, cover the same stretch and have equally many
children. -/
def resembles : Tree → Tree → Bool
  | leaf t a b, leaf t' a' b' => t == t' && a == a' && b == b'
  | node r a b cs, node r' a' b' cs' =>
    r == r' && a == a' && b == b' && cs.length == cs'.length
  | _, _ => false

/-- The tree is of the given rule. -/
def isNode (rule : Nat) : Tree → Bool
  | node r _ _ _ => r == rule
  | leaf _ _ _ => false

/-- The tree is the given token. -/
def isLeaf (token : Nat) : Tree → Bool
  | leaf t _ _ => t == token
  | node _ _ _ _ => false

mutual

/-- The order of trees: tokens come before rules, then the number decides, then how many
children there are, then the first child that differs. -/
def order : Tree → Tree → Ordering
  | leaf t _ _, leaf t' _ _ => compare t t'
  | leaf _ _ _, node _ _ _ _ => .lt
  | node _ _ _ _, leaf _ _ _ => .gt
  | node r _ _ cs, node r' _ _ cs' =>
    ((compare r r').then (compare cs.length cs'.length)).then (orderAll cs cs')

/-- The order of the first children that differ. -/
def orderAll : List Tree → List Tree → Ordering
  | [], [] => .eq
  | [], _ :: _ => .lt
  | _ :: _, [] => .gt
  | c :: cs, c' :: cs' => (order c c').then (orderAll cs cs')

end

end Tree

end SourceAtlas.Parsing
