/-!
# Rules

The right hand sides of a grammar as they are written: tokens and names of other rules in a row,
alternatives, and repetitions. An alternative may carry a rank and a side, which settle what is
done where two readings compete.
-/

namespace SourceAtlas.Parsing

/-- Which of two readings of equal rank is taken: the one that groups to the left ends what it
has read, the one that groups to the right reads on. -/
inductive Side where
  | left
  | right
  deriving DecidableEq, Repr

/-- What a rule stands for. -/
inductive Rule (τ ν : Type) where
  | token (t : τ)
  | named (name : ν)
  /-- All of the rules in a row. -/
  | seq (rules : List (Rule τ ν))
  /-- One of the rules. -/
  | choice (rules : List (Rule τ ν))
  /-- The rule one or more times. -/
  | many1 (rule : Rule τ ν)
  /-- The alternatives of the rule with a rank and perhaps a side. -/
  | ranked (rank : Int) (side : Option Side) (rule : Rule τ ν)

namespace Rule

variable {τ ν : Type}

mutual

/-- Both rules are written alike. -/
def same [BEq τ] [BEq ν] : Rule τ ν → Rule τ ν → Bool
  | token t, token t' => t == t'
  | named n, named n' => n == n'
  | seq rs, seq rs' => sameAll rs rs'
  | choice rs, choice rs' => sameAll rs rs'
  | many1 r, many1 r' => same r r'
  | ranked n s r, ranked n' s' r' => n == n' && s == s' && same r r'
  | _, _ => false

/-- The rules of both lists are written alike. -/
def sameAll [BEq τ] [BEq ν] : List (Rule τ ν) → List (Rule τ ν) → Bool
  | [], [] => true
  | r :: rs, r' :: rs' => same r r' && sameAll rs rs'
  | _, _ => false

end

instance [BEq τ] [BEq ν] : BEq (Rule τ ν) where
  beq := same

/-- The rule or nothing. -/
def opt (r : Rule τ ν) : Rule τ ν :=
  choice [r, seq []]

/-- The rule any number of times. -/
def many (r : Rule τ ν) : Rule τ ν :=
  opt (many1 r)

/-- The rule one or more times with a token in between. -/
def separated1 (t : τ) (r : Rule τ ν) : Rule τ ν :=
  seq [r, many (seq [token t, r])]

/-- The rule any number of times with a token in between. -/
def separated (t : τ) (r : Rule τ ν) : Rule τ ν :=
  opt (separated1 t r)

end Rule

/-- A symbol in a row: a token, a rule by its name, or a repetition of a rule. -/
inductive Part (τ ν : Type) where
  | token (t : τ)
  | named (name : ν)
  | repeated (rule : Rule τ ν)

/-- One alternative of a rule. -/
structure Alternative (τ ν : Type) where
  parts : List (Part τ ν)
  rank : Int := 0
  side : Option Side := none

namespace Rule

variable {τ ν : Type}

/-- The alternatives of two rules in a row. -/
def inRow (first second : List (Alternative τ ν)) : List (Alternative τ ν) :=
  first.flatMap fun a => second.map fun b => { parts := a.parts ++ b.parts }

mutual

/-- The alternatives of a rule. -/
def alternatives : Rule τ ν → List (Alternative τ ν)
  | token t => [{ parts := [.token t] }]
  | named name => [{ parts := [.named name] }]
  | seq rules => rowAlternatives rules
  | choice rules => choiceAlternatives rules
  | many1 rule => [{ parts := [.repeated rule] }]
  | ranked rank side rule => rule.alternatives.map fun a => { a with rank := rank, side := side }

/-- The alternatives of rules in a row. -/
def rowAlternatives : List (Rule τ ν) → List (Alternative τ ν)
  | [] => [{ parts := [] }]
  | rule :: rules => inRow rule.alternatives (rowAlternatives rules)

/-- The alternatives of one of several rules. -/
def choiceAlternatives : List (Rule τ ν) → List (Alternative τ ν)
  | [] => []
  | rule :: rules => rule.alternatives ++ choiceAlternatives rules

end

mutual

/-- The rules that are repeated inside a rule, inner ones first. -/
def repetitions : Rule τ ν → List (Rule τ ν)
  | token _ => []
  | named _ => []
  | seq rules => listRepetitions rules
  | choice rules => listRepetitions rules
  | many1 rule => rule.repetitions ++ [rule]
  | ranked _ _ rule => rule.repetitions

/-- The rules that are repeated inside any of several rules. -/
def listRepetitions : List (Rule τ ν) → List (Rule τ ν)
  | [] => []
  | rule :: rules => rule.repetitions ++ listRepetitions rules

end

mutual

/-- The tokens of a rule. -/
def tokens : Rule τ ν → List τ
  | token t => [t]
  | named _ => []
  | seq rules => listTokens rules
  | choice rules => listTokens rules
  | many1 rule => rule.tokens
  | ranked _ _ rule => rule.tokens

/-- The tokens of several rules. -/
def listTokens : List (Rule τ ν) → List τ
  | [] => []
  | rule :: rules => rule.tokens ++ listTokens rules

end

end Rule

end SourceAtlas.Parsing
