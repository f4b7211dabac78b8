import GrammarText.Text.Ranges.Alphabetic
import GrammarText.Text.Ranges.DefaultIgnorable
import GrammarText.Text.Ranges.GraphemeExtend
import GrammarText.Text.Ranges.Numeral
import GrammarText.Text.Ranges.Unprintable

/-!
# Classes of characters

Blanks, letters and numerals are those of Unicode. Each class is a table of ranges; the letters of
ASCII are told without a look at the table.
-/

namespace GrammarText

/-- Whether a code point lies in one of the ranges, which stand in increasing order. -/
def inRanges (n : Nat) : List (Nat × Nat) → Bool
  | [] => false
  | (low, high) :: more => if n < low then false else if n ≤ high then true else inRanges n more

/-- The code points with the property White_Space. -/
def blankRanges : List (Nat × Nat) :=
  [(0x9, 0xD), (0x20, 0x20), (0x85, 0x85), (0xA0, 0xA0), (0x1680, 0x1680), (0x2000, 0x200A),
   (0x2028, 0x2029), (0x202F, 0x202F), (0x205F, 0x205F), (0x3000, 0x3000)]

/-- White space of any kind, line feeds included. -/
def isBlank (c : Char) : Bool := inRanges c.toNat blankRanges

/-- A letter of any script, or a mark that counts as part of a word. -/
def isLetter (c : Char) : Bool :=
  if c.toNat < 0x80 then c.isAlpha else inRanges c.toNat alphabeticRanges

/-- A digit or another number of any script. -/
def isNumeral (c : Char) : Bool :=
  if c.toNat < 0x80 then c.isDigit else inRanges c.toNat numeralRanges

/-- A character that a display may leave out, such as a filler of an empty place. -/
def isIgnorable (c : Char) : Bool := inRanges c.toNat defaultIgnorableRanges

/-- A character that has a visible form when it stands alone. -/
def isPrintable (c : Char) : Bool := !inRanges c.toNat unprintableRanges && !isIgnorable c

/-- One of the two sound marks of halfwidth katakana, which are as wide as the letter before. -/
def isHalfwidthSoundMark (c : Char) : Bool := c == '\uff9e' || c == '\uff9f'

/-- A mark that is drawn on the character before it and takes no place of its own. -/
def isExtender (c : Char) : Bool :=
  inRanges c.toNat graphemeExtendRanges && !isHalfwidthSoundMark c

/-! ## Trimming -/

/-- The text without the blanks at its end. -/
def trimEnd (text : List Char) : List Char := (text.reverse.dropWhile isBlank).reverse

/-- The text without the blanks at its two ends. -/
def trim (text : List Char) : List Char := trimEnd (text.dropWhile isBlank)

end GrammarText
