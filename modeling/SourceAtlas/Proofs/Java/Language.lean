import SourceAtlas.Java.Unit
import SourceAtlas.Proofs.Parsing.Compiled
import SourceAtlas.Proofs.Parsing.Soundness

/-!
# The language of source texts

The rules of the language make a sensible grammar, and what looks for tokens finds them where reading
relies on them, so that what is read from a text is derived (`reading_of_mem_read`).
-/

namespace SourceAtlas.Java

open Parsing
open Parsing.Grammar (Numbering Sensible)

/-- The rules of the language by name. -/
def rules : List (Phrase × Form) :=
  Phrase.all.map fun p => (p, p.form)

/-- The numbers of the symbols of the language. -/
@[irreducible]
def numbering : Numbering Terminal Phrase :=
  .ofRules .finish rules

theorem numbering_eq :
  numbering = .ofRules .finish rules
  := by
  delta numbering
  rfl

theorem grammar_eq :
  grammar = .ofRules .finish rules [(.typeTest, .word "when")]
  := by
  delta grammar rules
  rfl

/-! ### The rules -/

theorem mem_all (p : Phrase) :
  p ∈ Phrase.all
  := by
  rw [← Phrase.ofNat_ctorIdx p]
  apply List.mem_map_of_mem
  rw [List.mem_range]
  cases p <;> decide

theorem nodup_all :
  Phrase.all.Nodup
  := by
  have numbers : Phrase.all.map Phrase.ctorIdx = List.range 144 := by decide +kernel
  apply List.Nodup.of_map Phrase.ctorIdx
  rw [numbers]
  apply List.nodup_range

theorem map_fst_rules :
  rules.map (·.1) = Phrase.all
  := by
  rw [rules, List.map_map]
  apply List.map_id

theorem mem_rules (p : Phrase) :
  (p, p.form) ∈ rules
  := List.mem_map_of_mem (mem_all p)

theorem sensible :
  Sensible .finish rules
  := by
  constructor
  case inhabited => exact List.ne_nil_of_mem (mem_rules .text)
  case nodup =>
    rw [map_fst_rules]
    apply nodup_all
  case named =>
    rw [map_fst_rules]
    apply mem_all
  case finish =>
    have none : ∀ p ∈ Phrase.all, Terminal.finish ∉ p.form.tokens := by decide +kernel
    intro named h
    obtain ⟨p, hp, rfl⟩ := List.mem_map.mp h
    apply none p hp

/-! ### Numbers -/

/-- A terminal of the language. -/
def IsTerminal (t : Terminal) : Prop :=
  t ∈ numbering.tokens

theorem isTerminal_of_form {t : Terminal} (p : Phrase) (h : t ∈ p.form.tokens) :
  IsTerminal t
  := by
  have known : (Numbering.ofRules .finish rules).Known (.token t) ∧ _ :=
    Numbering.known_of_mem sensible (mem_rules p) h
  rw [IsTerminal, numbering_eq]
  apply known.1

theorem tokens_grammar :
  grammar.tokens = numbering.tokens.toArray
  := by
  rw [grammar_eq, numbering_eq, Grammar.tokens_ofRules]

theorem names_grammar :
  grammar.names = numbering.names.toArray
  := by
  rw [grammar_eq, numbering_eq, Grammar.names_ofRules]

theorem tokenNumber_eq (t : Terminal) :
  tokenNumber t = numbering.tokens.idxOf t
  := by
  rw [tokenNumber, Grammar.tokenNumber, tokens_grammar]

theorem ruleNumber_eq (p : Phrase) :
  ruleNumber p = numbering.names.idxOf p
  := by
  rw [ruleNumber, Grammar.ruleNamed, names_grammar]

theorem tokenNumber_inj {t t' : Terminal} (h : IsTerminal t) :
  tokenNumber t = tokenNumber t' ↔ t = t'
  := by
  rw [tokenNumber_eq, tokenNumber_eq]
  apply List.idxOf_inj h

theorem tokenNumber_eq_zero {t : Terminal} (h : IsTerminal t) :
  tokenNumber t = 0 ↔ t = .finish
  := by
  rw [IsTerminal, numbering_eq] at h
  rw [tokenNumber_eq, numbering_eq]
  apply Numbering.idxOf_eq_zero h

theorem names_numbering :
  numbering.names = Phrase.all
  := by
  rw [numbering_eq, ← map_fst_rules]
  rfl

theorem ruleNumber_inj {p q : Phrase} :
  ruleNumber p = ruleNumber q ↔ p = q
  := by
  rw [ruleNumber_eq, ruleNumber_eq, names_numbering]
  apply List.idxOf_inj (mem_all p)

theorem tokenNumber_beq {t t' : Terminal} (h : IsTerminal t') :
  (tokenNumber t == tokenNumber t') = decide (t = t')
  := by
  rw [Bool.eq_iff_iff, beq_iff_eq, decide_eq_true_eq, eq_comm, tokenNumber_inj h, eq_comm]

theorem ruleNumber_beq (p q : Phrase) :
  (ruleNumber p == ruleNumber q) = decide (p = q)
  := by
  rw [Bool.eq_iff_iff, beq_iff_eq, decide_eq_true_eq, ruleNumber_inj]

theorem ruleNumber_lt (p : Phrase) :
  ruleNumber p < unitRules.repetition
  := by
  have count : unitRules.repetition = grammar.names.size := rfl
  rw [count, ruleNumber_eq, names_grammar, List.size_toArray, names_numbering]
  apply List.idxOf_lt_length_iff.mpr (mem_all p)

theorem isTerminal_identifier :
  IsTerminal .identifier
  := isTerminal_of_form .qualifiedName (by decide)

/-! ### Tokens -/

theorem isTerminal_finish :
  IsTerminal .finish
  := by
  rw [IsTerminal, numbering_eq]
  apply Grammar.mem_distinct.mpr
  apply List.mem_cons_self

/-- The terminals with their numbers. -/
theorem mem_zipIdx_tokens {t : Terminal} {n : Nat} :
  (t, n) ∈ grammar.tokens.toList.zipIdx ↔ IsTerminal t ∧ tokenNumber t = n
  := by
  rw [tokenNumber, grammar_eq, IsTerminal, numbering_eq]
  apply Grammar.mem_zipIdx_tokens

theorem indexed_grammar :
  grammar.Indexed
  := by
  rw [grammar_eq]
  apply Grammar.indexed_ofRules sensible

theorem finish_eq_zero :
  openTokens.finish = 0
  := by
  have number : openTokens.finish = tokenNumber .finish := rfl
  rw [number, tokenNumber_eq_zero isTerminal_finish]

theorem identifier_ne_zero :
  openTokens.identifier ≠ 0
  := by
  have number : openTokens.identifier = tokenNumber .identifier := rfl
  rw [number, Ne, tokenNumber_eq_zero isTerminal_identifier]
  exact nofun

/-- The words of the language. -/
theorem mem_wordTokens {word : List Char} {n : Nat} :
  (word, n) ∈ wordTokens
    ↔ ∃ text, IsTerminal (.word text) ∧ text.toList = word ∧ tokenNumber (.word text) = n
  := by
  rw [wordTokens, List.mem_filterMap]
  constructor
  · rintro ⟨⟨t, m⟩, mem, h⟩
    obtain ⟨terminal, rfl⟩ := mem_zipIdx_tokens.mp mem
    cases t with
    | word text =>
      obtain ⟨rfl, rfl⟩ := Prod.mk.inj (Option.some.inj h)
      exact ⟨text, terminal, rfl, rfl⟩
    | _ => contradiction
  · rintro ⟨text, terminal, rfl, rfl⟩
    exact ⟨(.word text, _), mem_zipIdx_tokens.mpr ⟨terminal, rfl⟩, rfl⟩

/-- The signs of the language. -/
theorem mem_signTokens {sign : List Char} {n : Nat} :
  (sign, n) ∈ signTokens
    ↔ ∃ text, IsTerminal (.sign text) ∧ text.toList = sign ∧ tokenNumber (.sign text) = n
  := by
  rw [signTokens, List.mem_filterMap]
  constructor
  · rintro ⟨⟨t, m⟩, mem, h⟩
    obtain ⟨terminal, rfl⟩ := mem_zipIdx_tokens.mp mem
    cases t with
    | sign text =>
      obtain ⟨rfl, rfl⟩ := Prod.mk.inj (Option.some.inj h)
      exact ⟨text, terminal, rfl, rfl⟩
    | _ => contradiction
  · rintro ⟨text, terminal, rfl, rfl⟩
    exact ⟨(.sign text, _), mem_zipIdx_tokens.mpr ⟨terminal, rfl⟩, rfl⟩

theorem has_wordSet {n : Nat} :
  wordSet.has n = true ↔ ∃ text, IsTerminal (.word text) ∧ tokenNumber (.word text) = n
  := by
  have collect := TokenSet.has_foldl (t := n) TokenSet.union (fun set : TokenSet => set.has n = true)
    (by simp)
  rw [wordSet, TokenSet.unionAll, collect]
  simp only [TokenSet.not_has_zero, List.mem_map, Prod.exists, mem_wordTokens]
  constructor
  · rintro (h | ⟨_, ⟨_, _, ⟨text, terminal, _, rfl⟩, rfl⟩, h⟩)
    · contradiction
    · rw [TokenSet.has_single, decide_eq_true_eq] at h
      exact ⟨text, terminal, h.symm⟩
  · rintro ⟨text, terminal, rfl⟩
    exact .inr ⟨_, ⟨_, _, ⟨text, terminal, rfl, rfl⟩, rfl⟩, by simp⟩

/-! ### Looking for tokens -/

theorem lexemeAt_after {p : Parsing.Place} {token length : Nat} {x : Lexeme}
    (h : lexemeAt p token length = some x) :
  0 < length ∧ x = ⟨token, p.offset, p.skip length⟩
  := by
  unfold lexemeAt at h
  split at h
  · contradiction
  · next positive =>
    obtain rfl := Option.some.inj h
    exact ⟨by simpa [Nat.pos_iff_ne_zero] using positive, rfl⟩

theorem skip_skip (p : Parsing.Place) (m n : Nat) :
  (p.skip m).skip n = p.skip (m + n)
  := by
  simp [Place.skip, Nat.add_assoc]

/-- The token stands some characters behind the place and is not empty unless it is the end of the
text. -/
def Behind (p : Parsing.Place) (x : Lexeme) : Prop :=
  ∃ n, x.after = p.skip n ∧ (x.token ≠ 0 → 0 < n)

theorem Behind.skip {p : Parsing.Place} {n : Nat} {x : Lexeme} (h : Behind (p.skip n) x) :
  Behind p x
  := by
  obtain ⟨m, after, positive⟩ := h
  refine ⟨n + m, by rw [after, skip_skip], ?_⟩
  intro ne
  have := positive ne
  omega

theorem behind_lexemeAt {p : Parsing.Place} {token length : Nat} {x : Lexeme}
    (h : lexemeAt p token length = some x) :
  Behind p x
  := by
  obtain ⟨positive, rfl⟩ := lexemeAt_after h
  exact ⟨length, rfl, fun _ => positive⟩

theorem behind_scanPlain {wanted : TokenSet} {p : Parsing.Place} {x : Lexeme}
    (h : scanPlain wanted p = some x) :
  Behind p x
  := by
  unfold scanPlain at h
  simp only at h
  split at h
  · rw [finish_eq_zero] at h
    obtain rfl := Option.some.inj h
    exact ⟨layoutLength 0 p.rest, rfl, fun ne => absurd rfl ne⟩
  · apply Behind.skip (behind_lexemeAt h)

theorem behind_scanString {p : Parsing.Place} {x : Lexeme} (h : scanString p = some x) :
  Behind p x
  := by
  unfold scanString at h
  split at h <;> apply behind_lexemeAt h

theorem behind_scanStretch {p : Parsing.Place} {x : Lexeme} (h : scanStretch p = some x) :
  Behind p x
  := by
  unfold scanStretch at h
  split at h
  case h_2 =>
    cases first : lexemeAt p openTokens.blockEscape (blockEscapeLength p.rest) with
    | some y =>
      rw [first] at h
      obtain rfl := Option.some.inj h
      apply behind_lexemeAt first
    | none =>
      rw [first] at h
      apply behind_lexemeAt h
  all_goals apply behind_lexemeAt h

theorem exists_passComments (fuel : Nat) (p : Parsing.Place) :
  ∃ n, passComments fuel p = p.skip n
  := by
  induction fuel generalizing p with
  | zero => exact ⟨0, by simp [passComments, Place.skip]⟩
  | succ fuel ih =>
    unfold passComments
    split
    · next n _ =>
      obtain ⟨m, same⟩ := ih (p.skip n)
      exact ⟨n + m, by rw [same, skip_skip]⟩
    · exact ⟨0, by simp [Place.skip]⟩

theorem behind_scanBlock {p : Parsing.Place} {x : Lexeme} (h : scanBlock p = some x) :
  Behind p x
  := by
  unfold scanBlock at h
  split at h
  · next n _ =>
    obtain ⟨m, same⟩ := exists_passComments p.rest.length (p.skip n)
    rw [same, skip_skip] at h
    apply Behind.skip (behind_scanStretch h)
  · apply behind_scanStretch h

theorem behind_scan {wanted : TokenSet} {p : Parsing.Place} {x : Lexeme} (h : scan wanted p = some x) :
  Behind p x
  := by
  unfold scan at h
  split at h
  · apply behind_scanString h
  · split at h
    · apply behind_scanBlock h
    · apply behind_scanPlain h

theorem language_lawful :
  language.Lawful
  := by
  constructor
  case indexed => apply indexed_grammar
  case scan_after => apply behind_scan
  case words =>
    apply Bool.eq_false_iff.mpr
    intro h
    obtain ⟨text, terminal, zero⟩ := has_wordSet.mp h
    have := (tokenNumber_eq_zero terminal).mp zero
    contradiction
  case plainWord => apply identifier_ne_zero

end SourceAtlas.Java
