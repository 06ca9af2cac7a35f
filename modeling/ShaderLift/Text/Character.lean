import ShaderLift.Text.WordTable
import ShaderLift.Text.DigitTable
import ShaderLift.Text.IdentifierTable
import ShaderLift.Text.UnprintableTable

/-!
# Character classes

Word characters, digits, identifier characters and printable characters.  ASCII
characters are decided by comparison, all others by the range tables.
-/

namespace ShaderLift
namespace Text

/-- Some range of the table holds the code point. -/
def inRanges (ranges : List (Nat × Nat)) (code : Nat) : Bool :=
  ranges.any fun range => range.1 ≤ code && code ≤ range.2

/-- A letter of ASCII or an underscore. -/
def isNameStart (c : Char) : Bool :=
  c.isAlpha || c == '_'

/-- Word characters: letters, numeric characters and the underscore. -/
def isWord (c : Char) : Bool :=
  c.isAlphanum || c == '_' || (0x80 ≤ c.toNat && inRanges wordRanges c.toNat)

/-- The value of a decimal digit. -/
def decimalValue? (c : Char) : Option Nat :=
  if c.isDigit then
    some (c.toNat - 48)
  else
    (decimalRanges.find? fun range =>
      range.1 ≤ c.toNat && c.toNat ≤ range.2).map
        fun range => (c.toNat - range.1) % 10

/-- A decimal digit of any script. -/
def isDecimal (c : Char) : Bool :=
  (decimalValue? c).isSome

/-- A digit, decimal or not. -/
def isAnyDigit (c : Char) : Bool :=
  isDecimal c || inRanges otherDigitRanges c.toNat

/-- The text is an identifier: a start character, then continuing ones. -/
def isIdentifier : List Char → Bool
  | [] => false
  | c :: cs =>
      (isNameStart c ||
        (0x80 ≤ c.toNat && inRanges identifierStartRanges c.toNat)) &&
      cs.all fun d =>
        d.isAlphanum || d == '_' ||
          (0x80 ≤ d.toNat && inRanges identifierContinueRanges d.toNat)

/-- The character has a visible form or is the plain space. -/
def isPrintable (c : Char) : Bool :=
  let n := c.toNat
  if n < 0x80 then 0x20 ≤ n && n < 0x7F
  else !inRanges unprintableRanges n

/-- A word boundary lies between the two neighbours: exactly one of them is a
word character. -/
def isBoundary (before after : Option Char) : Bool :=
  before.any isWord != after.any isWord

end Text
end ShaderLift
