-- SUMMARY: Character classes: blanks, ASCII letters, word characters and the properties behind casing.
import SolutionAtlas.Text.CharTables

/-!
# Character classes

Which characters separate words, which form them, and which can be shown as they are. Every class
decides ASCII on its own, and looks the rest up in `SolutionAtlas.Text.CharTables`.
-/

namespace SolutionAtlas.Text

/-- Membership of a code point in a list of closed ranges. -/
def inRanges (ranges : List (Nat × Nat)) (n : Nat) : Bool :=
  ranges.any fun r => r.1 ≤ n && n ≤ r.2

/-- Blanks are the characters with the Unicode property White_Space. -/
def isBlank (c : Char) : Bool :=
  let n := c.toNat
  (9 ≤ n && n ≤ 13) || n == 0x20 || n == 0x85 || n == 0xA0 || n == 0x1680 ||
    (0x2000 ≤ n && n ≤ 0x200A) || n == 0x2028 || n == 0x2029 || n == 0x202F || n == 0x205F ||
    n == 0x3000

/-- Letters and numbers of every script. -/
def isAlphanumeric (c : Char) : Bool :=
  if c.toNat < 0x80 then c.isAlphanum else inRanges CharTables.alphanumericRanges c.toNat

/-- The characters that words are made of: letters, digits, marks and what connects them. -/
def isWordPart (c : Char) : Bool :=
  let n := c.toNat
  if n < 0x80 then c.isAlphanum || c == '_'
  else
    (isAlphanumeric c && !inRanges CharTables.otherNumberRanges n) ||
      inRanges CharTables.wordMarkRanges n

/-- Letters that take part in the distinction between upper and lower case. -/
def isCased (c : Char) : Bool :=
  if c.toNat < 0x80 then c.isAlpha else inRanges CharTables.casedRanges c.toNat

/-- Characters that are passed over when the neighbourhood of a letter decides its case. -/
def isCaseIgnorable (c : Char) : Bool :=
  if c.toNat < 0x80 then ['\'', '.', ':', '^', '\x60'].contains c
  else inRanges CharTables.caseIgnorableRanges c.toNat

/-- Marks that merge with the character before them. -/
def isGraphemeExtend (c : Char) : Bool :=
  0x80 ≤ c.toNat && inRanges CharTables.graphemeExtendRanges c.toNat

/-- Characters that show themselves on a page. -/
def isPrintable (c : Char) : Bool :=
  if c.toNat < 0x80 then 0x20 ≤ c.toNat && c.toNat != 0x7F
  else !inRanges CharTables.unprintableRanges c.toNat

end SolutionAtlas.Text
