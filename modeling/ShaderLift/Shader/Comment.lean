/-!
# Comments and braces of a line

A line of shader code is a sequence of atoms: characters of code, the two
braces, pieces of block comments, and a remark, which is a `//` comment up to
the end of the line.  A block comment may be open when a line starts and when
it ends.
-/

namespace ShaderLift
namespace Shader

/-- The smallest parts of a line that the layout tells apart. -/
inductive Atom
  /-- A character of code other than a brace. -/
  | plain (c : Char)
  /-- An opening brace of the code. -/
  | opening
  /-- A closing brace of the code. -/
  | closing
  /-- Characters of a block comment, its marks included. -/
  | comment (text : List Char)
  /-- A `//` comment, which ends the line. -/
  | remark (text : List Char)
deriving Repr, DecidableEq

namespace Atom

/-- The characters of an atom. -/
def text : Atom → List Char
  | .plain c => [c]
  | .opening => ['{']
  | .closing => ['}']
  | .comment text => text
  | .remark text => text

/-- The atoms of a line, and whether a block comment is open behind it.  The
first argument says whether one is open before it. -/
def ofLine : Bool → List Char → List Atom × Bool
  | inside, [] => ([], inside)
  | true, '*' :: '/' :: cs =>
      let (atoms, left) := ofLine false cs
      (.comment ['*', '/'] :: atoms, left)
  | true, c :: cs =>
      let (atoms, left) := ofLine true cs
      (.comment [c] :: atoms, left)
  | false, '/' :: '/' :: cs => ([.remark ('/' :: '/' :: cs)], false)
  | false, '/' :: '*' :: cs =>
      let (atoms, left) := ofLine true cs
      (.comment ['/', '*'] :: atoms, left)
  | false, '{' :: cs =>
      let (atoms, left) := ofLine false cs
      (.opening :: atoms, left)
  | false, '}' :: cs =>
      let (atoms, left) := ofLine false cs
      (.closing :: atoms, left)
  | false, c :: cs =>
      let (atoms, left) := ofLine false cs
      (.plain c :: atoms, left)

/-- The atoms of a line are the line. -/
theorem flatMap_text_ofLine
    (inside : Bool)
    (line : List Char) : (ofLine inside line).1.flatMap text = line := by
  fun_induction ofLine inside line <;> simp_all [text]

end Atom
end Shader
end ShaderLift
