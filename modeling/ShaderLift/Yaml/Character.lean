/-!
# Characters of a document

A document is read with its line ends unified, so a line ends in a line feed
or in one of three separators.  A word of a document ends at a space, a tab, a
line end or the end of the text.
-/

namespace ShaderLift
namespace Yaml

/-- The character ends a line. -/
def isBreak (c : Char) : Bool :=
  c == '\n' || c == '\x85' || c == '\u2028' || c == '\u2029'

/-- What a line end is read as: the next-line character is a line feed, the
two separators are themselves. -/
def readBreak (c : Char) : Char :=
  if c = '\x85' then '\n' else c

/-- A space, a tab or a line end. -/
def isWhite (c : Char) : Bool :=
  c == ' ' || c == '\t' || isBreak c

/-- A word may end before this text. -/
def atWordEnd (text : List Char) : Bool :=
  text.head?.all isWhite

/-- The characters of anchors and of the names of directives. -/
def isAnchorChar (c : Char) : Bool :=
  c.isAlphanum || c == '-' || c == '_'

/-- A document may hold this character. -/
def isAllowed (c : Char) : Bool :=
  let n := c.toNat
  n == 9 || n == 10 || n == 13 || (0x20 ≤ n && n ≤ 0x7E) || n == 0x85 ||
    (0xA0 ≤ n && n ≤ 0xD7FF) || (0xE000 ≤ n && n ≤ 0xFFFD) || 0x10000 ≤ n

/-- The text starts with a mark that divides documents. -/
def atDocumentMark (text : List Char) : Bool :=
  match text with
  | '-' :: '-' :: '-' :: rest => atWordEnd rest
  | '.' :: '.' :: '.' :: rest => atWordEnd rest
  | _ => false

end Yaml
end ShaderLift
