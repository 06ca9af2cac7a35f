import ShaderLift.Text.Blank
import ShaderLift.Text.Replace

/-!
# The entry point signature

A shader is entered through
`void mainImage(out vec4 <colour>, in vec2 <coordinate>)`.  The signature is a
sequence of exact texts and gaps of blanks.  The leftmost place where it occurs
becomes `void main() `, together with the spaces and tabs behind it.
-/

namespace ShaderLift
namespace Shader
namespace EntryPoint

open Text

/-- A part of a signature. -/
inductive Part
  /-- The text itself. -/
  | exactly (text : List Char)
  /-- Any number of blanks. -/
  | gap
  /-- At least one blank. -/
  | blanks
deriving Repr, DecidableEq

/-- Pass over blanks so that what follows succeeds, over as many as
possible. -/
def overGap (next : List Char → Option β) : List Char → Option β
  | [] => next []
  | c :: cs =>
      if isBlank c then (overGap next cs).or (next (c :: cs))
      else next (c :: cs)

/-- Match the parts at the beginning of a text and return what is left. -/
def matchParts : List Part → List Char → Option (List Char)
  | [], text => some text
  | .exactly wanted :: rest, text =>
      match dropExact wanted text with
      | none => none
      | some left => matchParts rest left
  | .gap :: rest, text => overGap (matchParts rest) text
  | .blanks :: _, [] => none
  | .blanks :: rest, c :: cs =>
      if isBlank c then overGap (matchParts rest) cs else none

/-- The signature with the given names of its two parameters. -/
def signature (colour coordinate : List Char) : List Part :=
  [.exactly "void".toList, .blanks, .exactly "mainImage".toList, .gap,
    .exactly ['('], .gap, .exactly "out".toList, .blanks,
    .exactly "vec4".toList, .blanks, .exactly colour, .gap, .exactly [','],
    .gap, .exactly "in".toList, .blanks, .exactly "vec2".toList, .blanks,
    .exactly coordinate, .gap, .exactly [')']]

/-- Cut a text at the leftmost occurrence of the parts: what stands before it
and what stands behind it. -/
def cut (parts : List Part) : List Char → Option (List Char × List Char)
  | [] => (matchParts parts []).map fun left => ([], left)
  | c :: cs =>
      match matchParts parts (c :: cs) with
      | some left => some ([], left)
      | none => (cut parts cs).map fun (before, left) => (c :: before, left)

/-- The signature that replaces the entry point. -/
def mainSignature : List Char :=
  "void main() ".toList

/-- The source has an entry point. -/
def isIn (colour coordinate : List Char) (source : List Char) : Bool :=
  (cut (signature colour coordinate) source).isSome

/-- Replace the entry point by `void main() `; nothing if there is none. -/
def replace?
    (colour coordinate : List Char)
    (source : List Char) : Option (List Char) :=
  (cut (signature colour coordinate) source).map fun (before, left) =>
    before ++ mainSignature ++ left.dropWhile isSpaceOrTab

end EntryPoint
end Shader
end ShaderLift
