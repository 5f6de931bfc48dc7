/-!
# Text from bytes

The reading of bytes as UTF-8. Bytes are cut into pieces from left to right: a piece is a
character that is encoded in full, or a broken piece, which is the longest start of some
encoding, or a single byte when no encoding starts there. Bytes are a text when no piece is
broken; otherwise the broken pieces are dropped, and with them the replacement characters,
which other programs leave where they met broken text.
-/

namespace SourceAtlas.Text

/-- The replacement character. -/
def replacement : Char := Char.ofNat 0xFFFD

/-- A byte that may follow inside an encoding, when the position does not ask for more. -/
def isFollower (b : UInt8) : Bool :=
  0x80 ≤ b.toNat && b.toNat ≤ 0xBF

/-- A byte that may follow the leading byte `lead`. Some leading bytes ask for more than a
follower: they exclude encodings that are too long, surrogates, and points beyond the last
one. -/
def isSecond (lead b : UInt8) : Bool :=
  let low := if lead.toNat == 0xE0 then 0xA0 else if lead.toNat == 0xF0 then 0x90 else 0x80
  let high := if lead.toNat == 0xED then 0x9F else if lead.toNat == 0xF4 then 0x8F else 0xBF
  low ≤ b.toNat && b.toNat ≤ high

/-- The number of bytes after the leading byte `b`, if `b` leads an encoding of several
bytes. -/
def followers (b : UInt8) : Nat :=
  if 0xC2 ≤ b.toNat && b.toNat ≤ 0xDF then 1
  else if 0xE0 ≤ b.toNat && b.toNat ≤ 0xEF then 2
  else if 0xF0 ≤ b.toNat && b.toNat ≤ 0xF4 then 3
  else 0

/-- The six low bits of a following byte. -/
def lowBits (b : UInt8) : Nat :=
  b.toNat - 0x80

/-- The piece that starts with the byte `b`, as its character if it is not broken, and the
bytes after it. -/
def readPiece (b : UInt8) (rest : List UInt8) : Option Char × List UInt8 :=
  if b.toNat < 0x80 then
    (some (Char.ofNat b.toNat), rest)
  else
    match followers b, rest with
    | 1, c :: r =>
      if isFollower c then (some (Char.ofNat ((b.toNat - 0xC0) * 0x40 + lowBits c)), r)
      else (none, rest)
    | 2, c :: r =>
      if isSecond b c then
        match r with
        | d :: r' =>
          if isFollower d then
            (some (Char.ofNat ((b.toNat - 0xE0) * 0x1000 + lowBits c * 0x40 + lowBits d)), r')
          else (none, r)
        | [] => (none, [])
      else (none, rest)
    | 3, c :: r =>
      if isSecond b c then
        match r with
        | d :: r' =>
          if isFollower d then
            match r' with
            | e :: r'' =>
              if isFollower e then
                (some (Char.ofNat ((b.toNat - 0xF0) * 0x40000 + lowBits c * 0x1000
                  + lowBits d * 0x40 + lowBits e)), r'')
              else (none, r')
            | [] => (none, [])
          else (none, r)
        | [] => (none, [])
      else (none, rest)
    | _, _ => (none, rest)

/-- A piece takes nothing beyond the bytes it was given. -/
theorem length_readPiece (b : UInt8) (rest : List UInt8) :
  (readPiece b rest).2.length ≤ rest.length
  := by
  unfold readPiece
  repeat' split
  all_goals simp_all
  all_goals omega

/-- The pieces of the bytes, from left to right. -/
def pieces : List UInt8 → List (Option Char)
  | [] => []
  | b :: rest => (readPiece b rest).1 :: pieces (readPiece b rest).2
termination_by bytes => bytes.length
decreasing_by
  have := length_readPiece b rest
  simp only [List.length_cons]
  omega

/-- The text that the bytes encode, if no piece is broken. -/
def decode? (bytes : List UInt8) : Option (List Char) :=
  if (pieces bytes).all Option.isSome then some ((pieces bytes).filterMap id) else none

/-- The text of the bytes. Where a piece is broken, the broken pieces and all replacement
characters are left out. -/
def decodeLossy (bytes : List UInt8) : List Char :=
  match decode? bytes with
  | some text => text
  | none => ((pieces bytes).filterMap id).filter (· != replacement)

/-- The bytes that encode a text. -/
def encode (s : String) : List UInt8 :=
  s.toUTF8.toList

end SourceAtlas.Text
