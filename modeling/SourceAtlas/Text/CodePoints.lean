/-!
# Sets of characters given by code points

A property of characters that comes from a published table is kept as ranges of code
points: the solid ranges, of which every point belongs to the set, and the alternating
ranges, of which every second point does (as in scripts that list each capital letter
right before its small one).
-/

namespace SourceAtlas.Text

/-- A set of code points given by ranges with both ends included. -/
structure CodePoints where
  /-- Ranges of which every point is meant. -/
  solid : Array (Nat × Nat)
  /-- Ranges of which the first, third, fifth, ... points are meant. -/
  alternating : Array (Nat × Nat)

namespace CodePoints

/-- The code point of `c` lies in the set. -/
def contains (s : CodePoints) (c : Char) : Bool :=
  s.solid.any (fun r => r.1 ≤ c.toNat && c.toNat ≤ r.2) ||
    s.alternating.any (fun r => r.1 ≤ c.toNat && c.toNat ≤ r.2 && (c.toNat - r.1) % 2 == 0)

end CodePoints

end SourceAtlas.Text
