import SourceAtlas.Parsing.Rule

/-!
# Grammars

A grammar in the form in which it is worked with: tokens and rules are numbers, every rule has
productions, and a repetition is a rule of its own that grows to the left. Sets of tokens are
numbers whose bits tell the members. No rule stands for nothing.
-/

namespace SourceAtlas.Parsing

/-- A set of tokens: the bit of a token tells whether it is a member. -/
abbrev TokenSet := Nat

namespace TokenSet

/-- The set of one token. -/
def single (t : Nat) : TokenSet := 1 <<< t

/-- The union of two sets. -/
def union (a b : TokenSet) : TokenSet := a ||| b

/-- The union of several sets. -/
def unionAll (sets : List TokenSet) : TokenSet := sets.foldl union 0

/-- The token is a member. -/
def has (s : TokenSet) (t : Nat) : Bool := s.testBit t

/-- The set has members. -/
def isInhabited (s : TokenSet) : Bool := s != 0

end TokenSet

/-- A symbol of a production. -/
inductive Symbol where
  | token (t : Nat)
  | rule (r : Nat)
  deriving DecidableEq, Repr

/-- The number of a symbol. -/
def Symbol.code : Symbol → Nat
  | token t => 2 * t
  | rule r => 2 * r + 1

/-- The token that a symbol is. -/
def Symbol.token? : Symbol → Option Nat
  | token t => some t
  | rule _ => none

/-- The rule that a symbol is. -/
def Symbol.rule? : Symbol → Option Nat
  | rule r => some r
  | token _ => none

/-- A row of symbols that a rule stands for. -/
structure Production where
  /-- The rule. -/
  rule : Nat
  symbols : Array Symbol
  rank : Int := 0
  side : Option Side := none
  deriving Repr

/-- A rule that can begin a rule, and what follows it there: the tokens behind it, and whether
it also ends the rule, so that what follows the rule follows it too. -/
structure Lead where
  rule : Nat
  behind : TokenSet
  ends : Bool
  deriving Repr

/-- A grammar. The last production is the one of the whole text. -/
structure Grammar (τ ν : Type) where
  tokens : Array τ
  /-- The names of the rules that have one. -/
  names : Array ν
  productions : Array Production
  /-- The number of rules, with repetitions. -/
  ruleCount : Nat
  /-- The tokens that can begin a rule. -/
  firsts : Array TokenSet
  /-- The tokens that begin a production of a rule. -/
  openings : Array TokenSet
  /-- The rules that begin a production of a rule. -/
  leads : Array (List Lead)
  /-- The productions that begin with a token. -/
  byToken : Array (List Nat)
  /-- The productions that begin with a rule. -/
  byRule : Array (List Nat)
  /-- Tokens that count as possible behind a rule wherever it stands. -/
  forced : Array TokenSet

namespace Grammar

variable {τ ν : Type}

/-! ### Numbering -/

/-- The list without repeated members, each at its first place. -/
def distinct {α : Type} [BEq α] (xs : List α) : List α :=
  (xs.foldl (fun seen x => if seen.contains x then seen else x :: seen) []).reverse

/-- What the symbols of a grammar are numbered by: tokens by their places in a list, rules by the
place of their name, and repetitions behind them. -/
structure Numbering (τ ν : Type) where
  tokens : List τ
  names : List ν
  repeated : List (Rule τ ν)

namespace Numbering

/-- The numbers for some rules and the token at the end of a text. -/
def ofRules [BEq τ] [BEq ν] (finish : τ) (rules : List (ν × Rule τ ν)) : Numbering τ ν where
  tokens := distinct (finish :: rules.flatMap (·.2.tokens))
  names := rules.map (·.1)
  repeated := distinct (rules.flatMap (·.2.repetitions))

/-- The number of rules, with repetitions. -/
def ruleCount (n : Numbering τ ν) : Nat :=
  n.names.length + n.repeated.length

/-- The symbol of a part. -/
def symbol [BEq τ] [BEq ν] (n : Numbering τ ν) : Part τ ν → Symbol
  | .token t => .token (n.tokens.idxOf t)
  | .named name => .rule (n.names.idxOf name)
  | .repeated rule => .rule (n.names.length + n.repeated.idxOf rule)

/-- The productions of a rule. -/
def productionsOf [BEq τ] [BEq ν] (n : Numbering τ ν) (rule : Nat)
    (alternatives : List (Alternative τ ν)) : List Production :=
  alternatives.map fun a =>
    { rule := rule, symbols := (a.parts.map n.symbol).toArray, rank := a.rank, side := a.side }

/-- The productions of a repetition, which is its last member behind the ones before it, or its
only member. -/
def repetitionProductions [BEq τ] [BEq ν] (n : Numbering τ ν) (rule : Nat)
    (alternatives : List (Alternative τ ν)) : List Production :=
  alternatives.flatMap fun a =>
    let row := a.parts.map n.symbol
    [{ rule := rule, symbols := (.rule rule :: row).toArray },
      { rule := rule, symbols := row.toArray }]

/-- The production of the whole text, which is read by the first rule. -/
def wholeProduction (n : Numbering τ ν) : Production where
  rule := n.ruleCount
  symbols := #[.rule 0]

/-- The productions of named rules, of their repetitions and of the whole text. -/
def productions [BEq τ] [BEq ν] (n : Numbering τ ν) (rules : List (ν × Rule τ ν)) :
    List Production :=
  (rules.zipIdx.flatMap fun ((_, rule), r) => n.productionsOf r rule.alternatives)
    ++ (n.repeated.zipIdx.flatMap fun (rule, r) =>
      n.repetitionProductions (n.names.length + r) rule.alternatives)
    ++ [n.wholeProduction]

end Numbering

/-! ### First tokens -/

/-- The tokens that can begin a symbol. -/
def beginning (firsts : Array TokenSet) : Symbol → TokenSet
  | .token t => TokenSet.single t
  | .rule r => firsts.getD r 0

/-- Adds the tokens that can begin a production to those of its rule. -/
def addFirsts (firsts : Array TokenSet) (p : Production) : Array TokenSet :=
  match p.symbols.toList with
  | s :: _ => firsts.modify p.rule (TokenSet.union (beginning firsts s))
  | [] => firsts

/-- One round of collecting the first tokens of rules. -/
def firstsRound (productions : Array Production) (firsts : Array TokenSet) : Array TokenSet :=
  productions.foldl addFirsts firsts

/-- The first tokens of rules after rounds that change something, at most as many as given. -/
def collectFirsts (productions : Array Production) : (rounds : Nat) → Array TokenSet →
    Array TokenSet
  | 0, firsts => firsts
  | rounds + 1, firsts =>
    let more := firstsRound productions firsts
    if more == firsts then firsts else collectFirsts productions rounds more

/-! ### What begins a rule -/

/-- Adds a lead to others, joined with the one of the same rule. -/
def addLead (lead : Lead) : List Lead → List Lead
  | [] => [lead]
  | l :: ls =>
    if l.rule == lead.rule then
      { l with behind := l.behind.union lead.behind, ends := l.ends || lead.ends } :: ls
    else l :: addLead lead ls

/-- The lead of a production, if it begins with a rule. -/
def leadOf? (firsts : Array TokenSet) (p : Production) : Option Lead :=
  match p.symbols.toList with
  | [.rule r] => some { rule := r, behind := 0, ends := true }
  | .rule r :: s :: _ => some { rule := r, behind := beginning firsts s, ends := false }
  | _ => none

/-- Adds the lead of a production to those of its rule. -/
def addLeadOf (firsts : Array TokenSet) (leads : Array (List Lead)) (p : Production) :
    Array (List Lead) :=
  match leadOf? firsts p with
  | some lead => leads.modify p.rule (addLead lead)
  | none => leads

/-- Collects the leads of all rules. -/
def collectLeads (count : Nat) (firsts : Array TokenSet) (productions : Array Production) :
    Array (List Lead) :=
  productions.foldl (addLeadOf firsts) (Array.replicate count [])

/-- Adds the token that begins a production to those of its rule. -/
def addOpening (openings : Array TokenSet) (p : Production) : Array TokenSet :=
  match p.symbols.toList with
  | .token t :: _ => openings.modify p.rule (TokenSet.union (TokenSet.single t))
  | _ => openings

/-- Collects the tokens that begin productions. -/
def collectOpenings (count : Nat) (productions : Array Production) : Array TokenSet :=
  productions.foldl addOpening (Array.replicate count 0)

/-- The number that is chosen for the first symbol of a production. -/
def firstBy (choose : Symbol → Option Nat) (productions : Array Production) (p : Nat) :
    Option Nat :=
  (productions[p]?.bind (·.symbols.toList.head?)).bind choose

/-- The productions whose first symbol is chosen, by its number. -/
def collectByFirst (count : Nat) (choose : Symbol → Option Nat) (productions : Array Production) :
    Array (List Nat) :=
  (List.range productions.size).foldr
    (fun p lists =>
      match firstBy choose productions p with
      | some n => lists.modify n (p :: ·)
      | none => lists)
    (Array.replicate count [])

/-! ### From rules -/

/-- The productions by the token that they begin with. -/
def collectByToken (count : Nat) : Array Production → Array (List Nat) :=
  collectByFirst count Symbol.token?

/-- The productions by the rule that they begin with. -/
def collectByRule (count : Nat) : Array Production → Array (List Nat) :=
  collectByFirst count Symbol.rule?

/-- The grammar of named rules. The first rule is the one of the whole text, and `finish` is the
token at its end. The pairs of `forced` are rules and tokens that count as possible behind them
wherever they stand. -/
def ofRules [BEq τ] [BEq ν] (finish : τ) (rules : List (ν × Rule τ ν)) (forced : List (ν × τ)) :
    Grammar τ ν :=
  let n := Numbering.ofRules finish rules
  let count := n.ruleCount + 1
  let productions := (n.productions rules).toArray
  let firsts := collectFirsts productions n.ruleCount (Array.replicate count 0)
  { tokens := n.tokens.toArray
    names := n.names.toArray
    productions := productions
    ruleCount := count
    firsts := firsts
    openings := collectOpenings count productions
    leads := collectLeads count firsts productions
    byToken := collectByToken n.tokens.length productions
    byRule := collectByRule count productions
    forced := forced.foldl
      (fun sets (name, t) =>
        sets.modify (n.names.idxOf name) (TokenSet.union (TokenSet.single (n.tokens.idxOf t))))
      (Array.replicate count 0) }

/-- The number of the rule with a name. -/
def ruleNamed [BEq ν] (g : Grammar τ ν) (name : ν) : Nat :=
  g.names.toList.idxOf name

/-- The number of a token. -/
def tokenNumber [BEq τ] (g : Grammar τ ν) (t : τ) : Nat :=
  g.tokens.toList.idxOf t

/-- The productions that begin with a symbol. -/
def startingWith (g : Grammar τ ν) : Symbol → List Nat
  | .token t => g.byToken.getD t []
  | .rule r => g.byRule.getD r []

/-- The production of the whole text. -/
def wholeProduction (g : Grammar τ ν) : Nat :=
  g.productions.size - 1

end Grammar

end SourceAtlas.Parsing
