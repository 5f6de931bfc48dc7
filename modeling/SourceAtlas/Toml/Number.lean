/-!
# Numbers of TOML text

Integers in four bases and decimal fractions with exponents. Low lines may stand between
digits, and a decimal number has no idle zeros in front. Integers have to fit into 64 bits and
fractions have to be finite.
-/

namespace SourceAtlas.Toml

/-- The value of a digit in a base up to sixteen. -/
def digitValue? (base : Nat) (c : Char) : Option Nat :=
  let value := if c.isDigit then c.toNat - '0'.toNat
    else if 'a' ≤ c && c ≤ 'f' then c.toNat - 'a'.toNat + 10
    else if 'A' ≤ c && c ≤ 'F' then c.toNat - 'A'.toNat + 10
    else base
  if value < base then some value else none

/-- Digits with what follows them. -/
structure DigitRun where
  negative : Bool
  digits : List Nat
  rest : List Char
  deriving DecidableEq, Repr

/-- The digits at the start of a text with single low lines between them, behind the digits
`taken`, last first. The flag tells whether a low line came just before. -/
def moreDigits (base : Nat) : (taken : List Nat) → (pending : Bool) → List Char →
    Option (List Nat × List Char)
  | taken, pending, [] => if pending || taken.isEmpty then none else some (taken.reverse, [])
  | taken, pending, c :: cs =>
    match digitValue? base c with
    | some d => moreDigits base (d :: taken) false cs
    | none =>
      if c == '_' && !pending then
        if taken.isEmpty then none else moreDigits base taken true cs
      else if pending || taken.isEmpty then none
      else some (taken.reverse, c :: cs)

/-- The digits at the start of a text, perhaps with a sign, and without idle zeros unless they
are allowed. -/
def digitRun (base : Nat) (signed idleZeros : Bool) (cs : List Char) : Option DigitRun := do
  let isSign := signed && (cs.head? == some '-' || cs.head? == some '+')
  let (digits, rest) ← moreDigits base [] false (if isSign then cs.drop 1 else cs)
  if !idleZeros && digits.head? == some 0 && digits.length != 1 then none
  else some ⟨cs.head? == some '-', digits, rest⟩

/-- The number that digits of a base stand for. -/
def valueOf (base : Nat) (digits : List Nat) : Nat :=
  digits.foldl (fun n d => n * base + d) 0

/-- The integer fits into 64 bits. -/
def fits (n : Int) : Bool :=
  Int64.minValue.toInt ≤ n && n ≤ Int64.maxValue.toInt

/-- The integer that a whole text stands for. -/
def integer? (base : Nat) (cs : List Char) : Option Int := do
  let run ← digitRun base (base == 10) (base != 10) cs
  let n : Int := valueOf base run.digits
  let n := if run.negative then -n else n
  if run.rest.isEmpty && fits n then some n else none

/-- The fraction with the given digits, times a power of ten, is finite as a double: it lies
below the half way point between the largest double and the next power of two. -/
def isFinite (digits : List Nat) (scale : Int) : Bool :=
  let n := valueOf 10 digits
  let limit := Nat.pow 2 1024 - Nat.pow 2 970
  let length : Int := (digits.dropWhile (· == 0)).length
  if n == 0 then true
  else if length + scale > 320 then false
  else if length + scale < 300 then true
  else if scale < 0 then n < limit * Nat.pow 10 scale.natAbs
  else n * Nat.pow 10 scale.natAbs < limit

end SourceAtlas.Toml
