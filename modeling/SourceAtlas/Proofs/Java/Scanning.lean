import SourceAtlas.Proofs.Java.Language
import SourceAtlas.Proofs.Java.Layout

/-!
# Tokens in a text

The longest token stands at the start of a text with all its characters (`exists_stands`), so a token
that is found behind a place stands behind the layout there (`found_stands`). The other way round a
name is found where names are wanted (`Identifier.longestToken_written`), and so is a mark that ends or
divides names (`longestToken_mark`).
-/

namespace SourceAtlas.Java

open Parsing

/-! ### Which token it is -/

section Tokens

variable {wanted : TokenSet} {cs text : List Char}

/-- What is found for a word among some numbered words. -/
theorem find?_word_cases (words : List (List Char × Nat)) (wanted : TokenSet) (text : List Char)
    (plain : Nat) :
  ((words.find? fun (word, n) => wanted.has n && word == text).map Prod.snd).getD plain = plain
      ∧ (∀ n, (text, n) ∈ words → wanted.has n = false)
    ∨ ∃ n, (text, n) ∈ words
      ∧ ((words.find? fun (word, n) => wanted.has n && word == text).map Prod.snd).getD plain = n
  := by
  cases found : words.find? fun (word, n) => wanted.has n && word == text with
  | none =>
    refine .inl ⟨rfl, ?_⟩
    intro n mem
    simpa using List.find?_eq_none.mp found _ mem
  | some pair =>
    obtain ⟨word, n⟩ := pair
    have same := List.find?_some found
    simp only [Bool.and_eq_true, beq_iff_eq] at same
    exact .inr ⟨n, same.2 ▸ List.mem_of_find?_eq_some found, rfl⟩

/-- What a word is: a word of the language that is wanted, or a plain name. -/
theorem wordToken_cases (wanted : TokenSet) (text : List Char) :
  wordToken wanted text = openTokens.identifier
      ∧ (∀ word, IsTerminal (.word word) → word.toList = text →
        wanted.has (tokenNumber (.word word)) = false)
    ∨ ∃ word, IsTerminal (.word word) ∧ word.toList = text
      ∧ wordToken wanted text = tokenNumber (.word word)
  := by
  rw [wordToken]
  obtain ⟨same, unwanted⟩ | ⟨n, mem, same⟩ :=
    find?_word_cases wordTokens wanted text openTokens.identifier
  · refine .inl ⟨same, ?_⟩
    rintro word known rfl
    exact unwanted _ (mem_wordTokens.mpr ⟨word, known, rfl, rfl⟩)
  · obtain ⟨word, known, text, rfl⟩ := mem_wordTokens.mp mem
    exact .inr ⟨word, known, text, same⟩

/-- A word that is wanted is that word. -/
theorem wordToken_eq_word {word : String} (known : IsTerminal (.word word))
    (has : wanted.has (tokenNumber (.word word)) = true) :
  wordToken wanted word.toList = tokenNumber (.word word)
  := by
  obtain ⟨_, unwanted⟩ | ⟨word', _, same, token⟩ := wordToken_cases wanted word.toList
  · rw [unwanted word known rfl] at has
    contradiction
  · rw [token, String.toList_inj.mp same]

/-- What is no word of the language is a plain name. -/
theorem wordToken_eq_identifier (h : ∀ word, IsTerminal (.word word) → word.toList ≠ text) :
  wordToken wanted text = openTokens.identifier
  := by
  obtain ⟨same, _⟩ | ⟨word, known, same, _⟩ := wordToken_cases wanted text
  · exact same
  · exact absurd same (h word known)

/-- A token and its length that fit the start of a text. -/
inductive Matches (cs : List Char) : Nat × Nat → Prop where
  | word : Matches cs (openTokens.identifier, wordLength cs)
  | sign {sign : String} (known : IsTerminal (.sign sign)) (starts : sign.toList <+: cs) :
      Matches cs (tokenNumber (.sign sign), sign.toList.length)
  | number : Matches cs (openTokens.number, numberLength cs)
  | character : Matches cs (openTokens.character, charLength cs)

/-- No token was found yet, or one that fits. -/
def Fits (cs : List Char) (best : Nat × Nat) : Prop :=
  best.2 = 0 ∨ Matches cs best

theorem Fits.longer {a b : Nat × Nat} (ha : Fits cs a) (hb : Fits cs b) :
  Fits cs (longer a b)
  := by
  unfold Java.longer
  split
  · exact hb
  · exact ha

theorem Fits.longestSign {best : Nat × Nat} (h : Fits cs best) :
  Fits cs (longestSign wanted cs best)
  := by
  apply List.foldlRecOn (motive := Fits cs) _ _ h
  rintro best fits ⟨sign, n⟩ mem
  simp only
  split
  · next found =>
    obtain ⟨text, known, rfl, rfl⟩ := mem_signTokens.mp mem
    rw [Bool.and_eq_true, List.isPrefixOf_iff_prefix] at found
    exact fits.longer (.inr (.sign known found.2))
  · exact fits

/-- The longest token fits, and what fits as a plain name may be a word of the language. -/
theorem exists_longestToken (wanted : TokenSet) (cs : List Char) :
  ∃ best, Fits cs best ∧ longestToken wanted cs
    = if best.1 == openTokens.identifier then (wordToken wanted (cs.take best.2), best.2) else best
  := by
  have start : Fits cs (0, 0) := .inl rfl
  have word : ∀ b : Bool, Fits cs (openTokens.identifier, if b then wordLength cs else 0) := by
    intro b
    cases b
    · exact .inl rfl
    · exact .inr .word
  have more : ∀ {best : Nat × Nat} (b : Bool) {other : Nat × Nat}, Fits cs best → Matches cs other →
      Fits cs (if b then longer best other else best) := by
    intro best b other fits matches'
    cases b
    · exact fits
    · exact fits.longer (.inr matches')
  rw [longestToken]
  exact ⟨_, more _ (more _ (start.longer (word _)).longestSign .number) .character, rfl⟩

/-- The characters of a terminal stand at the start of a text, as far as they tell what it is. -/
def Stands (cs : List Char) (length : Nat) : Terminal → Prop
  | .identifier => length = wordLength cs
  | .word word => length = wordLength cs ∧ cs.take length = word.toList
  | .sign sign => length = sign.toList.length ∧ sign.toList <+: cs
  | _ => True

/-- The longest token stands at the start of the text. -/
theorem exists_stands (h : 0 < (longestToken wanted cs).2) :
  ∃ t, (longestToken wanted cs).1 = tokenNumber t ∧ Stands cs (longestToken wanted cs).2 t
  := by
  have apart : ∀ t, t ≠ .identifier → ¬ (tokenNumber t == openTokens.identifier) = true := by
    intro t ne
    have identifier : openTokens.identifier = tokenNumber .identifier := rfl
    rw [identifier, tokenNumber_beq isTerminal_identifier, decide_eq_true_eq]
    exact ne
  obtain ⟨best, fits, longest⟩ := exists_longestToken wanted cs
  rw [longest] at h ⊢
  obtain empty | found := fits
  · split at h <;> omega
  · cases found with
    | word =>
      rw [if_pos (beq_self_eq_true _)]
      obtain ⟨plain, _⟩ | ⟨word, _, same, token⟩ := wordToken_cases wanted (cs.take (wordLength cs))
      · exact ⟨.identifier, plain, rfl⟩
      · exact ⟨.word word, token, rfl, same.symm⟩
    | @sign sign known starts =>
      rw [if_neg (apart (.sign sign) nofun)]
      exact ⟨.sign sign, rfl, rfl, starts⟩
    | number =>
      have other : ¬ (openTokens.number == openTokens.identifier) = true := apart .number nofun
      rw [if_neg other]
      exact ⟨.number, rfl, trivial⟩
    | character =>
      have other : ¬ (openTokens.character == openTokens.identifier) = true := apart .character nofun
      rw [if_neg other]
      exact ⟨.character, rfl, trivial⟩

/-- Signs that are not longer change nothing. -/
theorem longestSign_of_le {best : Nat × Nat}
    (short : ∀ sign, IsTerminal (.sign sign) → sign.toList <+: cs → sign.toList.length ≤ best.2) :
  longestSign wanted cs best = best
  := by
  apply List.foldlRecOn (motive := (· = best)) _ _ rfl
  rintro _ rfl ⟨sign, n⟩ mem
  simp only
  split
  · next found =>
    obtain ⟨text, known, rfl, rfl⟩ := mem_signTokens.mp mem
    rw [Bool.and_eq_true, List.isPrefixOf_iff_prefix] at found
    exact if_neg (Nat.not_lt.mpr (short text known found.2))
  · rfl

/-- The longest of some numbered signs, if no other is as long. -/
theorem foldl_longer {signs : List (List Char × Nat)} {P : List Char × Nat → Bool} {target : Nat × Nat}
    (longest : ∀ x ∈ signs, P x = true → (x.2, x.1.length) = target ∨ x.1.length < target.2)
    {best : Nat × Nat}
    (h : best = target ∨ best.2 < target.2 ∧ ∃ x ∈ signs, P x = true ∧ (x.2, x.1.length) = target) :
  signs.foldl (fun best x => if P x then longer best (x.2, x.1.length) else best) best = target
  := by
  induction signs generalizing best with
  | nil => simpa using h
  | cons x signs ih =>
    obtain ⟨first, others⟩ := List.forall_mem_cons.mp longest
    rw [List.foldl_cons]
    apply ih others
    simp only [List.exists_mem_cons_iff] at h
    unfold longer
    split
    · next holds =>
      have := first holds
      split
      · next lt => grind
      · next le => grind
    · next fails => grind

/-- The longest wanted sign is found. -/
theorem longestSign_eq {sign : String} (known : IsTerminal (.sign sign))
    (has : wanted.has (tokenNumber (.sign sign)) = true) (starts : sign.toList <+: cs)
    (longest : ∀ other, IsTerminal (.sign other) → other.toList <+: cs →
      other = sign ∨ other.toList.length < sign.toList.length) (pos : sign ≠ "") :
  longestSign wanted cs (0, 0) = (tokenNumber (.sign sign), sign.toList.length)
  := by
  apply foldl_longer (P := fun x => wanted.has x.2 && x.1.isPrefixOf cs)
  · rintro ⟨text, n⟩ mem found
    obtain ⟨other, known, rfl, rfl⟩ := mem_signTokens.mp mem
    rw [Bool.and_eq_true, List.isPrefixOf_iff_prefix] at found
    obtain rfl | shorter := longest other known found.2
    · exact .inl rfl
    · exact .inr shorter
  · refine .inr ⟨?_, _, mem_signTokens.mpr ⟨sign, known, rfl, rfl⟩, ?_, rfl⟩
    · exact List.length_pos_iff.mpr fun empty => pos (String.toList_eq_nil_iff.mp empty)
    · simp [has, List.isPrefixOf_iff_prefix, starts]

/-- The text starts neither with a digit nor with a point before one. -/
def NoNumber (cs : List Char) : Prop :=
  cs.head?.any Char.isDigit = false
    ∧ (cs.head? = some '.' → (cs.drop 1).head?.any Char.isDigit = false)

namespace NoNumber

variable (h : NoNumber cs)
include h

theorem plainDigits_eq_none :
  plainDigits cs = none
  := by
  obtain ⟨noDigit, -⟩ := h
  cases cs with
  | nil => rfl
  | cons c cs =>
    have notDigit : c.isDigit = false := by simpa using noDigit
    have notZero : (c == '0') = false := by
      apply beq_false_of_ne
      rintro rfl
      contradiction
    rw [plainDigits, notZero, notDigit]
    rfl

theorem isPrefixOf_zero {b : List Char} (first : b.head? = some '0') :
  b.isPrefixOf cs = false
  := by
  apply Bool.eq_false_iff.mpr
  intro starts
  obtain ⟨rest, rfl⟩ := List.isPrefixOf_iff_prefix.mp starts
  obtain ⟨tail, rfl⟩ := List.head?_eq_some_iff.mp first
  obtain ⟨noDigit, -⟩ := h
  contradiction

theorem basedLength_eq_nil {beginnings : List String}
    (zero : ∀ b ∈ beginnings, b.toList.head? = some '0') (isDigit : Char → Bool) :
  basedLength beginnings isDigit cs = []
  := by
  apply List.filterMap_eq_nil_iff.mpr
  intro b hb
  rw [h.isPrefixOf_zero (zero b hb)]
  rfl

theorem floatLengths_eq_nil :
  floatLengths cs = []
  := by
  obtain ⟨noDigit, noPoint⟩ := h
  have pointed : digits Char.isDigit cs = none := by
    rw [digits, noDigit]
    rfl
  have leading : (if cs.head? == some '.' then digits Char.isDigit (cs.drop 1) else none) = none := by
    split
    · next point =>
      rw [digits, noPoint (beq_iff_eq.mp point)]
      rfl
    · rfl
  unfold floatLengths
  rw [pointed, plainDigits_eq_none ⟨noDigit, noPoint⟩]
  split at leading <;> simp_all

theorem hexLengths_eq_nil :
  hexLengths cs = []
  := by
  rw [hexLengths, List.any_cons, List.any_cons, h.isPrefixOf_zero (b := "0x".toList) rfl,
    h.isPrefixOf_zero (b := "0X".toList) rfl]
  rfl

/-- There is no number of any kind. -/
theorem numberLength_eq_zero :
  numberLength cs = 0
  := by
  rw [numberLength, h.plainDigits_eq_none, h.basedLength_eq_nil (by decide),
    h.basedLength_eq_nil (by decide), h.basedLength_eq_nil (by decide), h.floatLengths_eq_nil,
    h.hexLengths_eq_nil]
  rfl

end NoNumber

theorem charLength_eq_zero (h : cs.head? ≠ some '\x27') :
  charLength cs = 0
  := by
  unfold charLength
  split
  · contradiction
  · rfl

/-- A word is found if no sign is longer. -/
theorem longestToken_word
    (words : (wanted.has openTokens.identifier || (wanted &&& wordSet) != 0) = true)
    (pos : 0 < wordLength cs)
    (short : ∀ sign, IsTerminal (.sign sign) → sign.toList <+: cs →
      sign.toList.length ≤ wordLength cs)
    (noNumber : NoNumber cs) (noChar : cs.head? ≠ some '\x27') :
  longestToken wanted cs = (wordToken wanted (cs.take (wordLength cs)), wordLength cs)
  := by
  have keep : ∀ (b : Bool) (best : Nat × Nat) (n : Nat),
      (if b then longer best (n, 0) else best) = best := by
    intro b best n
    cases b <;> rfl
  have first : longer (0, 0) (openTokens.identifier, wordLength cs)
      = (openTokens.identifier, wordLength cs) := if_pos pos
  rw [longestToken, words, if_pos rfl, first, longestSign_of_le short, noNumber.numberLength_eq_zero,
    charLength_eq_zero noChar]
  simp only [keep, beq_self_eq_true, if_true]

/-- The longest sign is found where no word stands. -/
theorem longestToken_sign {sign : String} (known : IsTerminal (.sign sign))
    (has : wanted.has (tokenNumber (.sign sign)) = true) (starts : sign.toList <+: cs)
    (longest : ∀ other, IsTerminal (.sign other) → other.toList <+: cs →
      other = sign ∨ other.toList.length < sign.toList.length) (pos : sign ≠ "")
    (noWord : wordLength cs = 0) (noNumber : NoNumber cs) (noChar : cs.head? ≠ some '\x27') :
  longestToken wanted cs = (tokenNumber (.sign sign), sign.toList.length)
  := by
  have keep : ∀ (b : Bool) (best : Nat × Nat) (n : Nat),
      (if b then longer best (n, 0) else best) = best := by
    intro b best n
    cases b <;> rfl
  have first : longer (0, 0) (openTokens.identifier, 0) = (0, 0) := rfl
  have other : (tokenNumber (.sign sign) == openTokens.identifier) = false := by
    have identifier : openTokens.identifier = tokenNumber .identifier := rfl
    rw [identifier, tokenNumber_beq isTerminal_identifier]
    rfl
  rw [longestToken, noWord, ite_self, first, longestSign_eq known has starts longest pos,
    noNumber.numberLength_eq_zero, charLength_eq_zero noChar]
  simp only [keep, other, Bool.false_eq_true, if_false]

end Tokens

/-! ### Signs -/

/-- A sign that is no name and not longer than it looks: of the signs that start with a semicolon
or a point there are only these two and the three points. -/
def isPlainSign : Terminal → Bool
  | .sign sign =>
    match sign.toList with
    | [] => false
    | c :: cs => !isIdentifierStart c && (c != ';' || cs.isEmpty)
        && (c != '.' || cs.isEmpty || cs == ['.', '.'])
  | _ => true

theorem of_isTerminal {P : Terminal → Prop} (finish : P .finish)
    (tokens : ∀ p ∈ Phrase.all, ∀ t ∈ p.form.tokens, P t) {t : Terminal} (h : IsTerminal t) :
  P t
  := by
  rw [IsTerminal, numbering_eq, Grammar.Numbering.ofRules] at h
  dsimp only at h
  rw [Grammar.mem_distinct, List.mem_cons] at h
  obtain rfl | h := h
  · exact finish
  · obtain ⟨named, hn, ht⟩ := List.mem_flatMap.mp h
    obtain ⟨p, hp, rfl⟩ := List.mem_map.mp hn
    exact tokens p hp t ht

/-- The word with a hyphen is the only sign with letters, and only the three points start with another
sign that ends or divides names. -/
theorem sign_cases {sign : String} (h : IsTerminal (.sign sign)) :
  sign = "non-sealed" ∨ ∃ c cs, sign.toList = c :: cs ∧ isIdentifierStart c = false
    ∧ (c = ';' → cs = []) ∧ (c = '.' → cs = [] ∨ cs = ['.', '.'])
  := by
  have table : Terminal.sign sign = .sign "non-sealed" ∨ isPlainSign (.sign sign) = true :=
    of_isTerminal (P := fun t => t = .sign "non-sealed" ∨ isPlainSign t = true) (.inr rfl)
      (by decide +kernel) h
  refine table.imp Terminal.sign.inj ?_
  intro plain
  rw [isPlainSign] at plain
  cases text : sign.toList with
  | nil =>
    rw [text] at plain
    contradiction
  | cons c cs =>
    rw [text] at plain
    refine ⟨c, cs, rfl, ?_⟩
    simp only [Bool.and_eq_true, Bool.or_eq_true, Bool.not_eq_true', bne_iff_ne, List.isEmpty_iff,
      beq_iff_eq] at plain
    grind

/-! ### Names -/

namespace Identifier

variable (name : Identifier) {cs : List Char}

/-- No sign stands where a name does. -/
theorem not_sign (stops : StopsName cs) {sign : String} (known : IsTerminal (.sign sign)) :
  ¬ sign.toList <+: name.written ++ cs
  := by
  intro starts
  obtain rfl | ⟨c, rest, same, notStart, _⟩ := sign_cases known
  · have hyphen : '-' ∉ name.written := by
      intro mem
      obtain first | more := List.mem_cons.mp mem
      · have start := name.isStart
        rw [← first] at start
        contradiction
      · have part := name.isPart _ more
        contradiction
    obtain inside | ⟨rest, split⟩ := List.prefix_or_prefix_of_prefix starts (List.prefix_append _ cs)
    · exact hyphen (inside.subset (by decide))
    · rw [← split, List.prefix_append_right_inj] at starts
      cases rest with
      | nil =>
        rw [List.append_nil] at split
        exact hyphen (split ▸ by decide)
      | cons c rest =>
        obtain ⟨tail, rfl⟩ := starts
        obtain ⟨notPart, ne⟩ := stops c rfl
        have mem : c ∈ "non-sealed".toList := split ▸ by simp
        have letters : ("non-sealed".toList.all fun c => isIdentifierPart c || c == '-') = true := by
          decide
        have letter := List.all_eq_true.mp letters c mem
        rw [notPart, Bool.false_or, beq_iff_eq] at letter
        exact ne letter
  · rw [same] at starts
    obtain ⟨rfl, _⟩ := List.cons_prefix_cons.mp starts
    rw [name.isStart] at notStart
    contradiction

/-- A name is found where names are wanted. -/
theorem longestToken_written {wanted : TokenSet} (stops : StopsName cs)
    (words : (wanted.has openTokens.identifier || (wanted &&& wordSet) != 0) = true) :
  longestToken wanted (name.written ++ cs) = (wordToken wanted name.written, name.written.length)
  := by
  have length := name.wordLength_written stops
  have pos : 0 < wordLength (name.written ++ cs) := length ▸ Nat.succ_pos _
  have found := longestToken_word words pos
    (fun sign known starts => absurd starts (name.not_sign stops known)) ?_ ?_
  · rw [found, length, List.take_left]
  · constructor
    · have notDigit := isDigit_of_isIdentifierStart name.isStart
      simpa [written] using notDigit
    · intro point
      have start := name.isStart
      rw [Option.some.inj point] at start
      contradiction
  · intro quote
    have start := name.isStart
    rw [Option.some.inj quote] at start
    contradiction

end Identifier

/-! ### Marks -/

/-- What stands behind a point that divides names: no further point and no digit. -/
def StopsPoint (cs : List Char) : Prop :=
  ∀ c ∈ cs.head?, c ≠ '.' ∧ c.isDigit = false

theorem Identifier.stopsPoint (name : Identifier) {cs : List Char} :
  StopsPoint (name.written ++ cs)
  := by
  intro c hc
  obtain rfl : name.first = c := Option.some.inj hc
  refine ⟨?_, isDigit_of_isIdentifierStart name.isStart⟩
  intro point
  have start := name.isStart
  rw [point] at start
  contradiction

theorem Gap.stopsPoint (gap : Gap) {cs : List Char} (h : StopsPoint cs) :
  StopsPoint (gap.written ++ cs)
  := by
  cases gap with
  | nil => exact h
  | cons t gap =>
    have slash : '/' ≠ '.' ∧ '/'.isDigit = false := by decide
    cases t with
    | blank c space =>
      have table : ∀ n < 0x24, Char.ofNat n ≠ '.' ∧ (Char.ofNat n).isDigit = false := by decide
      intro d hd
      obtain rfl : c = d := Option.some.inj hd
      rw [← Char.ofNat_toNat c]
      exact table _ (lt_of_isSpace space)
    | line body inside => exact fun d hd => Option.some.inj hd ▸ slash
    | block body inside => exact fun d hd => Option.some.inj hd ▸ slash

/-- A mark that ends or divides names is found where it is wanted. -/
theorem longestToken_mark {wanted : TokenSet} {sign : String} {c : Char} {cs : List Char}
    (text : sign.toList = [c]) (known : IsTerminal (.sign sign))
    (has : wanted.has (tokenNumber (.sign sign)) = true)
    (mark : c = ';' ∨ c = '.' ∧ StopsPoint cs) :
  longestToken wanted (c :: cs) = (tokenNumber (.sign sign), 1)
  := by
  have length : sign.toList.length = 1 := congrArg List.length text
  rw [← length]
  apply longestToken_sign known has
  · rw [text]
    exact List.prefix_append [c] cs
  · intro other known' starts
    left
    rw [← String.toList_inj, text]
    obtain rfl | ⟨d, rest, same, _, semicolon, point⟩ := sign_cases known'
    · obtain rfl : 'n' = c := (List.cons_prefix_cons.mp starts).1
      simp at mark
    · rw [same] at starts ⊢
      obtain ⟨rfl, behind⟩ := List.cons_prefix_cons.mp starts
      obtain rfl | ⟨rfl, stops⟩ := mark
      · rw [semicolon rfl]
      · obtain rfl | rfl := point rfl
        · rfl
        · obtain ⟨tail, rfl⟩ := behind
          exact absurd rfl (stops '.' rfl).1
  · rintro rfl
    contradiction
  · have notStart : isIdentifierStart c = false := by
      obtain rfl | ⟨rfl, _⟩ := mark <;> rfl
    rw [wordLength, notStart]
    rfl
  · constructor
    · obtain rfl | ⟨rfl, _⟩ := mark <;> rfl
    · intro point
      obtain rfl | ⟨_, stops⟩ := mark
      · exact absurd (Option.some.inj point) (by decide)
      · cases cs with
        | nil => rfl
        | cons d cs => exact (stops d rfl).2
  · intro quote
    obtain rfl : c = '\x27' := Option.some.inj quote
    simp at mark

/-! ### Tokens that are found -/

/-- The tokens that are found in string literals. -/
def stringTokens : List Terminal :=
  [.fragment, .escape, .blockFragment, .blockQuote, .blockEscape, .sign "\"", .sign "\"\"\"",
    .sign "\\\x7b"]

section Scans

variable {wanted : TokenSet} {p : Parsing.Place} {x : Lexeme}

theorem scanString_token (h : scanString p = some x) :
  ∃ t ∈ stringTokens, x.token = tokenNumber t
  := by
  unfold scanString at h
  split at h
  · exact ⟨.sign "\\\x7b", by decide, by rw [(lexemeAt_after h).2]; rfl⟩
  · exact ⟨.escape, by decide, by rw [(lexemeAt_after h).2]; rfl⟩
  · exact ⟨.sign "\"", by decide, by rw [(lexemeAt_after h).2]; rfl⟩
  · exact ⟨.fragment, by decide, by rw [(lexemeAt_after h).2]; rfl⟩

theorem scanStretch_token (h : scanStretch p = some x) :
  ∃ t ∈ stringTokens, x.token = tokenNumber t
  := by
  unfold scanStretch at h
  split at h
  · exact ⟨.sign "\\\x7b", by decide, by rw [(lexemeAt_after h).2]; rfl⟩
  · rw [Option.orElse_eq_orElse, Option.orElse_eq_or, Option.or_eq_some_iff] at h
    obtain h | ⟨_, h⟩ := h
    · exact ⟨.blockEscape, by decide, by rw [(lexemeAt_after h).2]; rfl⟩
    · exact ⟨.escape, by decide, by rw [(lexemeAt_after h).2]; rfl⟩
  · exact ⟨.sign "\"\"\"", by decide, by rw [(lexemeAt_after h).2]; rfl⟩
  · exact ⟨.blockQuote, by decide, by rw [(lexemeAt_after h).2]; rfl⟩
  · exact ⟨.blockFragment, by decide, by rw [(lexemeAt_after h).2]; rfl⟩

/-- A token is found inside of a string literal or outside of one. -/
theorem scan_cases (h : scan wanted p = some x) :
  scanPlain wanted p = some x ∨ ∃ t ∈ stringTokens, x.token = tokenNumber t
  := by
  unfold scan at h
  split at h
  · exact .inr (scanString_token h)
  · split at h
    · right
      unfold scanBlock at h
      split at h <;> exact scanStretch_token h
    · exact .inl h

/-- The longest token is not opened from here on, as it would be looked for among all signs. -/
theorem scanPlain_eq_ite (wanted : TokenSet) (p : Parsing.Place) :
  scanPlain wanted p
    = if (p.rest.drop (layoutLength 0 p.rest)).isEmpty then
        some ⟨openTokens.finish, p.offset + layoutLength 0 p.rest, p.skip (layoutLength 0 p.rest)⟩
      else
        lexemeAt (p.skip (layoutLength 0 p.rest))
          (longestToken wanted (p.rest.drop (layoutLength 0 p.rest))).1
          (longestToken wanted (p.rest.drop (layoutLength 0 p.rest))).2
  := by
  rw [scanPlain]
  rfl

/-- Outside of string literals the end of the text is found behind its layout, or the longest
token. -/
theorem scanPlain_cases (h : scanPlain wanted p = some x) :
  p.rest.drop (layoutLength 0 p.rest) = [] ∧ x.token = tokenNumber .finish
    ∨ 0 < (longestToken wanted (p.rest.drop (layoutLength 0 p.rest))).2
      ∧ x.token = (longestToken wanted (p.rest.drop (layoutLength 0 p.rest))).1
      ∧ x.start = p.offset + layoutLength 0 p.rest
      ∧ x.after.offset
        = x.start + (longestToken wanted (p.rest.drop (layoutLength 0 p.rest))).2
  := by
  rw [scanPlain_eq_ite] at h
  obtain ⟨best, same⟩ : ∃ best, best = longestToken wanted (p.rest.drop (layoutLength 0 p.rest)) :=
    ⟨_, rfl⟩
  rw [← same] at h ⊢
  split at h
  · next empty =>
    obtain rfl := Option.some.inj h
    exact .inl ⟨List.isEmpty_iff.mp empty, rfl⟩
  · obtain ⟨pos, rfl⟩ := lexemeAt_after h
    exact .inr ⟨pos, rfl, rfl, rfl⟩

/-- Where the longest token is known it is found behind the layout. -/
theorem scanPlain_eq {gap : Gap} {cs : List Char} {token length : Nat}
    (rest : p.rest = gap.written ++ cs) (layout : layoutLength 0 cs = 0)
    (longest : longestToken wanted cs = (token, length)) (pos : 0 < length) (inhabited : cs ≠ []) :
  scanPlain wanted p
    = some ⟨token, p.offset + gap.written.length, p.skip (gap.written.length + length)⟩
  := by
  have passed : layoutLength 0 p.rest = gap.written.length := by
    rw [rest, gap.layoutLength_written, layout, Nat.add_zero]
  have behind : p.rest.drop gap.written.length = cs := by
    rw [rest, List.drop_left]
  have some : (length == 0) = false := beq_false_of_ne (Nat.ne_of_gt pos)
  rw [scanPlain_eq_ite, passed, behind, List.isEmpty_eq_false_iff.mpr inhabited, longest,
    if_neg Bool.false_ne_true, lexemeAt, some, if_neg Bool.false_ne_true, skip_skip]
  rfl

end Scans

section Found

variable {text : List Char} {start o : Nat} {leaf : Leaf}

theorem isTerminal_word_of_has {n : Nat} (h : language.words.has n = true) :
  ∃ word, IsTerminal (.word word) ∧ tokenNumber (.word word) = n
  := has_wordSet.mp h

/-- What is found as a token that does not stand in string literals stands behind the layout. -/
theorem found_stands (h : Found language text start o leaf) {t : Terminal} (known : IsTerminal t)
    (token : leaf.token = tokenNumber t) (plain : t ∉ .finish :: stringTokens) {n : Nat}
    {cs : List Char} (layout : layoutLength 0 (text.drop o) = n) (rest : (text.drop o).drop n = cs) :
  leaf.start = o + n ∧ ∃ length, leaf.stop = leaf.start + length ∧ Stands cs length t
  := by
  have scanned : ∀ {q : State} {x : Lexeme} {t' : Terminal}, IsTerminal t' →
      t' ∉ .finish :: stringTokens → x.token = tokenNumber t' →
      scan q.possible (.inText text o) = some x →
      x.start = o + n ∧ ∃ length, x.after.offset = x.start + length ∧ Stands cs length t' := by
    intro q x t' known plain token scanned
    rw [List.mem_cons, not_or] at plain
    obtain scanned | ⟨t'', mem, same⟩ := scan_cases scanned
    · have cases := scanPlain_cases scanned
      rw [Place.inText, layout, rest] at cases
      obtain ⟨_, finish⟩ | ⟨pos, first, begins, ends⟩ := cases
      · exact absurd ((tokenNumber_inj known).mp (token.symm.trans finish)) plain.1
      · obtain ⟨t'', same, stands⟩ := exists_stands pos
        obtain rfl := (tokenNumber_inj known).mp (token.symm.trans (first.trans same))
        exact ⟨begins, _, ends, stands⟩
    · obtain rfl := (tokenNumber_inj known).mp (token.symm.trans same)
      exact absurd mem plain.2
  cases h with
  | token reached found => exact scanned known plain token found
  | plain reached found word reached' idle =>
    obtain ⟨w, knownWord, same⟩ := isTerminal_word_of_has word
    obtain rfl : t = .identifier := (tokenNumber_inj known).mp token.symm
    obtain ⟨begins, length, ends, stands⟩ :=
      scanned knownWord (by simp [stringTokens]) same.symm found
    exact ⟨begins, length, ends, stands.1⟩

/-- A plain name is found with all its letters. -/
theorem found_identifier (h : Found language text start o leaf)
    (token : leaf.token = tokenNumber .identifier) {gap : Gap} {name : Identifier} {cs : List Char}
    (rest : text.drop o = gap.written ++ (name.written ++ cs)) (stops : StopsName cs) :
  leaf.start = o + gap.written.length ∧ leaf.stop = leaf.start + name.written.length
  := by
  obtain ⟨layout, behind⟩ := Gap.layoutLength_of_rest rest (name.layoutLength_written cs)
  obtain ⟨begins, length, ends, stands⟩ :=
    found_stands h isTerminal_identifier token (by decide) layout behind
  rw [Stands, name.wordLength_written stops] at stands
  exact ⟨begins, stands ▸ ends⟩

/-- A word of the language that is found is what stands there, with all its letters. -/
theorem found_word (h : Found language text start o leaf) {word : String}
    (known : IsTerminal (.word word)) (token : leaf.token = tokenNumber (.word word)) {gap : Gap}
    {name : Identifier} {cs : List Char} (rest : text.drop o = gap.written ++ (name.written ++ cs))
    (stops : StopsName cs) :
  leaf.start = o + gap.written.length ∧ leaf.stop = leaf.start + name.written.length
  := by
  obtain ⟨layout, behind⟩ := Gap.layoutLength_of_rest rest (name.layoutLength_written cs)
  obtain ⟨begins, length, ends, stands⟩ :=
    found_stands h known token (by simp [stringTokens]) layout behind
  rw [Stands, name.wordLength_written stops] at stands
  exact ⟨begins, stands.1 ▸ ends⟩

/-- A sign is found where it stands. -/
theorem found_sign (h : Found language text start o leaf) {sign : String}
    (known : IsTerminal (.sign sign)) (token : leaf.token = tokenNumber (.sign sign))
    (plain : Terminal.sign sign ∉ stringTokens) {gap : Gap} {cs : List Char}
    (rest : text.drop o = gap.written ++ cs) (none : layoutLength 0 cs = 0) :
  sign.toList <+: cs ∧ leaf.stop = o + gap.written.length + sign.toList.length
  := by
  obtain ⟨layout, behind⟩ := Gap.layoutLength_of_rest rest none
  obtain ⟨begins, length, ends, stands⟩ :=
    found_stands h known token (by simpa using plain) layout behind
  exact ⟨stands.2, begins ▸ stands.1 ▸ ends⟩

/-- A word of the language is found only in texts that hold it. -/
theorem infix_of_found (h : Found language text start o leaf) {word : String}
    (known : IsTerminal (.word word)) (token : leaf.token = tokenNumber (.word word)) :
  word.toList <:+: text.drop o
  := by
  obtain ⟨_, length, _, stands⟩ := found_stands h known token (by simp [stringTokens]) rfl rfl
  rw [← stands.2]
  exact (List.take_prefix _ _).isInfix.trans (List.drop_suffix _ _).isInfix

end Found

end SourceAtlas.Java
