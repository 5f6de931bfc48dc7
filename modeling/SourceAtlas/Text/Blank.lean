import SourceAtlas.Text.CodePoints

/-!
# Blank characters

The characters with the white space property: tab, line feed, vertical tab, form feed,
carriage return, the space and its relatives of fixed width, the next line control, the
no-break spaces and the two separators of lines and paragraphs.
-/

namespace SourceAtlas.Text

/-- The code points of the blank characters. -/
def blankPoints : CodePoints where
  solid := #[
    (0x9, 0xD), (0x20, 0x20), (0x85, 0x85), (0xA0, 0xA0), (0x1680, 0x1680), (0x2000, 0x200A),
    (0x2028, 0x2029), (0x202F, 0x202F), (0x205F, 0x205F), (0x3000, 0x3000)]
  alternating := #[]

/-- A character with the white space property. -/
def isBlank (c : Char) : Bool :=
  blankPoints.contains c

/-- The text without the blank characters at its two ends. -/
def trimBlanks (cs : List Char) : List Char :=
  ((cs.dropWhile isBlank).reverse.dropWhile isBlank).reverse

end SourceAtlas.Text
