import Mathlib.Data.List.Infix
import SourceAtlas.Text.Utf8

/-!
# Decoding with broken pieces left out

A piece that is read is a character with its whole encoding, or a broken piece, which is a byte and
bytes that may only follow inside an encoding (`cut_readPiece`). No encoding starts with one of the
latter, so leaving out a broken piece at once is the same as looking for an encoding again behind
each of its bytes (`filterMap_pieces`). Of an encoded text no piece is broken.
-/

namespace SourceAtlas.Text

/-! ### The encoding of a character -/

/-- The bytes encode the character with the number `v`. -/
inductive Encodes (v : Nat) : List UInt8 → Prop where
  | one {a : UInt8} (most : v ≤ 0x7F) (ha : a.toNat = v) : Encodes v [a]
  | two {a b : UInt8} (least : 0x7F < v) (most : v ≤ 0x7FF) (ha : a.toNat = v / 0x40 + 0xC0)
      (hb : b.toNat = v % 0x40 + 0x80) : Encodes v [a, b]
  | three {a b c : UInt8} (least : 0x7FF < v) (most : v ≤ 0xFFFF)
      (valid : v < 0xD800 ∨ 0xDFFF < v) (ha : a.toNat = v / 0x1000 + 0xE0)
      (hb : b.toNat = v / 0x40 % 0x40 + 0x80) (hc : c.toNat = v % 0x40 + 0x80) :
      Encodes v [a, b, c]
  | four {a b c d : UInt8} (least : 0xFFFF < v) (most : v ≤ 0x10FFFF)
      (ha : a.toNat = v / 0x40000 + 0xF0) (hb : b.toNat = v / 0x1000 % 0x40 + 0x80)
      (hc : c.toNat = v / 0x40 % 0x40 + 0x80) (hd : d.toNat = v % 0x40 + 0x80) :
      Encodes v [a, b, c, d]

namespace Encodes

variable {v : Nat} {bytes bytes' : List UInt8}

theorem valid (h : Encodes v bytes) :
  v < 0xD800 ∨ 0xDFFF < v ∧ v < 0x110000
  := by
  cases h <;> omega

theorem unique (h : Encodes v bytes) (h' : Encodes v bytes') :
  bytes = bytes'
  := by
  cases h <;> cases h' <;>
    simp only [List.cons.injEq, and_true, reduceCtorEq, ← UInt8.toNat_inj] <;> omega

end Encodes

theorem encodes_utf8EncodeChar (c : Char) :
  Encodes c.val.toNat (String.utf8EncodeChar c)
  := by
  have valid : c.val.toNat < 0xD800 ∨ 0xDFFF < c.val.toNat ∧ c.val.toNat < 0x110000 := c.valid
  unfold String.utf8EncodeChar
  generalize c.val.toNat = v at valid
  simp only
  split_ifs with one two three
  · apply Encodes.one one
    rw [UInt8.toNat_ofNat']
    omega
  · apply Encodes.two (by omega) two <;> rw [UInt8.toNat_ofNat'] <;> omega
  · apply Encodes.three (by omega) three (by omega) <;> rw [UInt8.toNat_ofNat'] <;> omega
  · apply Encodes.four (by omega) (by omega) <;> rw [UInt8.toNat_ofNat'] <;> omega

theorem toNat_val_ofNat {v : Nat} (valid : v < 0xD800 ∨ 0xDFFF < v ∧ v < 0x110000) :
  (Char.ofNat v).val.toNat = v
  := by
  rw [Char.ofNat, dif_pos valid]
  rfl

theorem Encodes.utf8EncodeChar_eq {v : Nat} {bytes : List UInt8} (h : Encodes v bytes) :
  String.utf8EncodeChar (Char.ofNat v) = bytes
  := by
  have encoded := encodes_utf8EncodeChar (Char.ofNat v)
  rw [toNat_val_ofNat h.valid] at encoded
  apply encoded.unique h

/-! ### Which bytes may follow -/

theorem isFollower_iff {b : UInt8} :
  isFollower b = true ↔ 0x80 ≤ b.toNat ∧ b.toNat ≤ 0xBF
  := by
  simp only [isFollower, Bool.and_eq_true, decide_eq_true_eq]

theorem isSecond_iff {lead b : UInt8} :
  isSecond lead b = true ↔ 0x80 ≤ b.toNat ∧ b.toNat ≤ 0xBF
    ∧ (lead.toNat = 0xE0 → 0xA0 ≤ b.toNat) ∧ (lead.toNat = 0xF0 → 0x90 ≤ b.toNat)
    ∧ (lead.toNat = 0xED → b.toNat ≤ 0x9F) ∧ (lead.toNat = 0xF4 → b.toNat ≤ 0x8F)
  := by
  unfold isSecond
  grind

theorem isFollower_of_isSecond {lead b : UInt8} (h : isSecond lead b = true) :
  isFollower b = true
  := by
  obtain ⟨least, most, -⟩ := isSecond_iff.mp h
  exact isFollower_iff.mpr ⟨least, most⟩

theorem followers_eq_one_iff {b : UInt8} :
  followers b = 1 ↔ 0xC2 ≤ b.toNat ∧ b.toNat ≤ 0xDF
  := by
  unfold followers
  grind

theorem followers_eq_two_iff {b : UInt8} :
  followers b = 2 ↔ 0xE0 ≤ b.toNat ∧ b.toNat ≤ 0xEF
  := by
  unfold followers
  grind

theorem followers_eq_three_iff {b : UInt8} :
  followers b = 3 ↔ 0xF0 ≤ b.toNat ∧ b.toNat ≤ 0xF4
  := by
  unfold followers
  grind

/-! ### Pieces -/

/-- What comes of a piece that starts with the byte `b`: a character whose encoding the bytes start
with, or a broken piece. -/
inductive Cut (b : UInt8) (rest : List UInt8) : Option Char × List UInt8 → Prop where
  | whole {c : Char} {more after : List UInt8} (encoded : String.utf8EncodeChar c = b :: more)
      (split : rest = more ++ after) : Cut b rest (some c, after)
  | broken (skipped : List UInt8) {after : List UInt8} (split : rest = skipped ++ after)
      (following : ∀ x ∈ skipped, isFollower x = true) : Cut b rest (none, after)

theorem cut_readPiece (b : UInt8) (rest : List UInt8) :
  Cut b rest (readPiece b rest)
  := by
  fun_cases readPiece b rest with
  | case1 small => exact .whole (Encodes.one (by omega) rfl).utf8EncodeChar_eq rfl
  | case2 _ c r lead hc =>
    have two : Encodes ((b.toNat - 0xC0) * 0x40 + lowBits c) [b, c] := by
      have := followers_eq_one_iff.mp lead
      have := isFollower_iff.mp hc
      unfold lowBits
      apply Encodes.two <;> omega
    exact .whole two.utf8EncodeChar_eq rfl
  | case4 _ c lead hc d r hd =>
    have three : Encodes ((b.toNat - 0xE0) * 0x1000 + lowBits c * 0x40 + lowBits d) [b, c, d] := by
      have := followers_eq_two_iff.mp lead
      have := isSecond_iff.mp hc
      have := isFollower_iff.mp hd
      unfold lowBits
      apply Encodes.three <;> omega
    exact .whole three.utf8EncodeChar_eq rfl
  | case8 _ c lead hc d hd e r he =>
    have four : Encodes ((b.toNat - 0xF0) * 0x40000 + lowBits c * 0x1000 + lowBits d * 0x40
        + lowBits e) [b, c, d, e] := by
      have := followers_eq_three_iff.mp lead
      have := isSecond_iff.mp hc
      have := isFollower_iff.mp hd
      have := isFollower_iff.mp he
      unfold lowBits
      apply Encodes.four <;> omega
    exact .whole four.utf8EncodeChar_eq rfl
  | case3 | case7 | case13 | case14 => exact .broken [] rfl (by simp)
  | case5 _ c _ hc | case6 _ c _ hc | case11 _ c _ hc | case12 _ c _ hc =>
    exact .broken [c] rfl (by simp [isFollower_of_isSecond hc])
  | case9 _ c _ hc d hd | case10 _ c _ hc d hd =>
    exact .broken [c, d] rfl (by simp [isFollower_of_isSecond hc, hd])

theorem readPiece_utf8EncodeChar {c : Char} {b : UInt8} {more : List UInt8}
    (h : String.utf8EncodeChar c = b :: more) (rest : List UInt8) :
  readPiece b (more ++ rest) = (some c, rest)
  := by
  have encoded := encodes_utf8EncodeChar c
  rw [h] at encoded
  rw [← Char.ofNat_toNat c, Char.toNat]
  generalize c.val.toNat = v at encoded
  unfold readPiece
  cases encoded with
  | one most ha =>
    rw [if_pos (by omega), ha]
    rfl
  | @two _ c least most hb hc =>
    have value : (b.toNat - 0xC0) * 0x40 + lowBits c = v := by
      unfold lowBits
      omega
    rw [if_neg (by omega), followers_eq_one_iff.mpr (by omega)]
    change (if isFollower c = true then _ else _) = _
    rw [if_pos (isFollower_iff.mpr (by omega)), value]
    rfl
  | @three _ c d least most valid hb hc hd =>
    have value : (b.toNat - 0xE0) * 0x1000 + lowBits c * 0x40 + lowBits d = v := by
      unfold lowBits
      omega
    rw [if_neg (by omega), followers_eq_two_iff.mpr (by omega)]
    change (if isSecond b c = true then if isFollower d = true then _ else _ else _) = _
    rw [if_pos (isSecond_iff.mpr (by omega)), if_pos (isFollower_iff.mpr (by omega)), value]
    rfl
  | @four _ c d e least most hb hc hd he =>
    have value : (b.toNat - 0xF0) * 0x40000 + lowBits c * 0x1000 + lowBits d * 0x40 + lowBits e
        = v := by
      unfold lowBits
      omega
    rw [if_neg (by omega), followers_eq_three_iff.mpr (by omega)]
    change (if isSecond b c = true then if isFollower d = true then if isFollower e = true then
      _ else _ else _ else _) = _
    rw [if_pos (isSecond_iff.mpr (by omega)), if_pos (isFollower_iff.mpr (by omega)),
      if_pos (isFollower_iff.mpr (by omega)), value]
    rfl

/-! ### The decoder that looks again behind every byte -/

/-- The character whose encoding the bytes start with. -/
def leading? (bytes : List UInt8) : Option Char :=
  bytes.toByteArray.utf8DecodeChar? 0

theorem leading?_eq_some_iff {bytes : List UInt8} {c : Char} :
  leading? bytes = some c ↔ String.utf8EncodeChar c <+: bytes
  := by
  constructor
  · intro found
    obtain ⟨rest, split⟩ := ByteArray.exists_of_utf8DecodeChar?_eq_some found
    use rest.data.toList
    have := congrArg (·.data.toList) split
    simpa using this.symm
  · rintro ⟨rest, rfl⟩
    rw [leading?, List.toByteArray_append]
    apply ByteArray.utf8DecodeChar?_utf8EncodeChar_append

/-- The characters of the encodings that stand in the bytes. Where none starts, a single byte is
passed over. -/
def resync : List UInt8 → List Char
  | [] => []
  | b :: rest =>
    match leading? (b :: rest) with
    | some c => c :: resync (rest.drop (c.utf8Size - 1))
    | none => resync rest
termination_by bytes => bytes.length
decreasing_by
  · simp only [List.length_drop, List.length_cons]
    omega
  · simp

theorem resync_utf8EncodeChar (c : Char) (rest : List UInt8) :
  resync (String.utf8EncodeChar c ++ rest) = c :: resync rest
  := by
  have found : leading? (String.utf8EncodeChar c ++ rest) = some c :=
    leading?_eq_some_iff.mpr (List.prefix_append _ _)
  have length := String.length_utf8EncodeChar c
  cases encoded : String.utf8EncodeChar c with
  | nil => exact absurd encoded String.utf8EncodeChar_ne_nil
  | cons b more =>
    rw [encoded] at found length
    rw [List.cons_append] at found
    rw [List.cons_append, resync, found]
    have size : c.utf8Size - 1 = more.length := by
      rw [← length, List.length_cons, Nat.add_sub_cancel]
    simp only [size, List.drop_left]

theorem resync_of_leading?_eq_none {b : UInt8} {rest : List UInt8}
    (h : leading? (b :: rest) = none) :
  resync (b :: rest) = resync rest
  := by
  rw [resync, h]

theorem exists_of_leading?_cons {b : UInt8} {rest : List UInt8} {c : Char}
    (h : leading? (b :: rest) = some c) :
  ∃ more after, String.utf8EncodeChar c = b :: more ∧ rest = more ++ after
  := by
  obtain nil | ⟨more, encoded, after, split⟩ :=
    List.prefix_cons_iff.mp (leading?_eq_some_iff.mp h)
  · exact absurd nil String.utf8EncodeChar_ne_nil
  · exact ⟨more, after, encoded, split.symm⟩

/-- No encoding starts with a byte that may only follow. -/
theorem leading?_follower {b : UInt8} (h : isFollower b = true) (rest : List UInt8) :
  leading? (b :: rest) = none
  := by
  by_contra! found
  obtain ⟨c, found⟩ := Option.ne_none_iff_exists'.mp found
  obtain ⟨more, after, encoded, -⟩ := exists_of_leading?_cons found
  have starts := encodes_utf8EncodeChar c
  have range := isFollower_iff.mp h
  rw [encoded] at starts
  cases starts <;> omega

/-- No encoding starts where a piece is broken. -/
theorem leading?_broken {b : UInt8} {rest after : List UInt8}
    (h : readPiece b rest = (none, after)) :
  leading? (b :: rest) = none
  := by
  by_contra! found
  obtain ⟨c, found⟩ := Option.ne_none_iff_exists'.mp found
  obtain ⟨more, behind, encoded, rfl⟩ := exists_of_leading?_cons found
  rw [readPiece_utf8EncodeChar encoded] at h
  exact Option.some_ne_none c (congrArg Prod.fst h)

theorem resync_followers_append {skipped : List UInt8} (h : ∀ x ∈ skipped, isFollower x = true)
    (rest : List UInt8) :
  resync (skipped ++ rest) = resync rest
  := by
  induction skipped with
  | nil => rfl
  | cons x skipped ih =>
    obtain ⟨hx, following⟩ := List.forall_mem_cons.mp h
    rw [List.cons_append, resync_of_leading?_eq_none (leading?_follower hx _), ih following]

/-- Leaving out the broken pieces is looking again behind each of their bytes. -/
theorem filterMap_pieces (bytes : List UInt8) :
  (pieces bytes).filterMap id = resync bytes
  := by
  induction bytes using pieces.induct with
  | case1 => rw [pieces, resync, List.filterMap_nil]
  | case2 b rest ih =>
    rw [pieces]
    cases piece : readPiece b rest with
    | mk c? after =>
      rw [piece] at ih
      have cut := cut_readPiece b rest
      rw [piece] at cut
      cases cut with
      | whole encoded split =>
        rw [split, ← List.cons_append, ← encoded, resync_utf8EncodeChar, ← ih]
        rfl
      | broken skipped split following =>
        rw [resync_of_leading?_eq_none (leading?_broken piece), split,
          resync_followers_append following, ← ih]
        rfl

/-- No piece of an encoded text is broken. -/
theorem pieces_flatMap_utf8EncodeChar (text : List Char) :
  pieces (text.flatMap String.utf8EncodeChar) = text.map some
  := by
  induction text with
  | nil => rw [List.flatMap_nil, pieces, List.map_nil]
  | cons c text ih =>
    rw [List.flatMap_cons]
    cases encoded : String.utf8EncodeChar c with
    | nil => exact absurd encoded String.utf8EncodeChar_ne_nil
    | cons b more =>
      rw [List.cons_append, pieces, readPiece_utf8EncodeChar encoded, ih, List.map_cons]

/-- Bytes without a broken piece are encoded text. -/
theorem exists_flatMap_utf8EncodeChar {bytes : List UInt8}
    (h : (pieces bytes).all Option.isSome = true) :
  ∃ text : List Char, text.flatMap String.utf8EncodeChar = bytes
  := by
  induction bytes using pieces.induct with
  | case1 => exact ⟨[], rfl⟩
  | case2 b rest ih =>
    rw [pieces, List.all_cons, Bool.and_eq_true] at h
    cases piece : readPiece b rest with
    | mk c? after =>
      rw [piece] at ih h
      have cut := cut_readPiece b rest
      rw [piece] at cut
      cases cut with
      | @whole c _ _ encoded split =>
        obtain ⟨text, rfl⟩ := ih h.2
        use c :: text
        rw [List.flatMap_cons, encoded, split, List.cons_append]
      | broken => exact absurd h.1 Bool.false_ne_true

/-! ### Encoded texts -/

theorem loop_toList (bytes : ByteArray) (i : Nat) (done : List UInt8) :
  ByteArray.toList.loop bytes i done = done.reverse ++ bytes.data.toList.drop i
  := by
  fun_induction ByteArray.toList.loop bytes i done with
  | case1 i done inside ih =>
    have bounded : i < bytes.data.toList.length := inside
    rw [ih, List.drop_eq_getElem_cons bounded]
    simp [ByteArray.get!, inside, getElem!_pos]
  | case2 i done outside =>
    have beyond : bytes.data.toList.length ≤ i := Nat.le_of_not_lt outside
    rw [List.drop_eq_nil_of_le beyond, List.append_nil]

theorem encode_ofList (text : List Char) :
  encode (String.ofList text) = text.flatMap String.utf8EncodeChar
  := by
  rw [encode, ByteArray.toList, loop_toList, List.reverse_nil, List.nil_append, List.drop_zero,
    String.toUTF8_eq_toByteArray, String.toByteArray_ofList, List.utf8Encode]
  apply List.toList_data_toByteArray

/-- Text is decoded to what was encoded, with any replacement characters that it has. From bytes
that encode no text, what is decoded are the characters that are found by looking for an encoding
again behind every byte at which none starts, without the replacement characters. -/
theorem decodeLossy_resyncs :
  (∀ s : String, decodeLossy (encode s) = s.toList)
    ∧ ∀ bytes : List UInt8, (∀ s, encode s ≠ bytes) →
      decodeLossy bytes = (resync bytes).filter (· != replacement)
  := by
  constructor
  · intro s
    have pieces : pieces (encode s) = s.toList.map some := by
      rw [← pieces_flatMap_utf8EncodeChar, ← encode_ofList, String.ofList_toList]
    simp [decodeLossy, decode?, pieces]
  · intro bytes unencoded
    rw [decodeLossy, decode?, if_neg, filterMap_pieces]
    intro whole
    obtain ⟨text, encoded⟩ := exists_flatMap_utf8EncodeChar whole
    exact unencoded (String.ofList text) ((encode_ofList text).trans encoded)

/-- A surrogate is no character, and neither is the start of a longer encoding; both are followed by
a replacement character that was in the text. -/
example : resync [0x61, 0xED, 0xA0, 0x80, 0xE2, 0x82, 0xEF, 0xBF, 0xBD, 0x62]
    = ['a', replacement, 'b'] := by
  decide +kernel

end SourceAtlas.Text
