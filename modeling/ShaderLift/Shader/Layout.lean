import ShaderLift.Shader.Comment
import ShaderLift.Text.Blank
import ShaderLift.Text.Lines
import ShaderLift.Text.Replace

/-!
# Layout of shader code

Code is laid out so that an opening brace ends its line and a closing brace
starts one.  Then every line is indented by the number of braces open before
it, runs of blank lines shrink to one, and the text is trimmed.  Braces inside
comments do not move, and neither do preprocessor lines.
-/

namespace ShaderLift
namespace Shader

open Text

/-! ## Breaking lines at braces -/

/-- The remark that follows with nothing but blanks before it. -/
def leadingRemark : List Atom → Option (List Char)
  | .plain c :: rest => if isBlank c then leadingRemark rest else none
  | .remark text :: _ => some text
  | _ => none

/-- Cut atoms into the first piece and the pieces behind it.  A piece ends
behind an opening brace and before a closing one; a remark right behind an
opening brace stays with it. -/
def pieces : List Atom → List Char × List (List Char)
  | [] => ([], [])
  | .plain c :: rest =>
      let (piece, more) := pieces rest
      (c :: piece, more)
  | .comment text :: rest =>
      let (piece, more) := pieces rest
      (text ++ piece, more)
  | .remark text :: _ => (text, [])
  | .opening :: rest =>
      match leadingRemark rest with
      | some text => ('{' :: ' ' :: text, [])
      | none =>
          let (piece, more) := pieces rest
          (['{'], piece :: more)
  | .closing :: rest =>
      let (piece, more) := pieces rest
      ([], ('}' :: piece) :: more)

/-- A preprocessor line: its first character that is not blank is `#`. -/
def isPreprocessor (line : List Char) : Bool :=
  (line.dropWhile isBlank).head? == some '#'

/-- Break a line at its braces.  Pieces without text vanish, but a line leaves
at least one piece.  Also says whether a block comment is open behind it. -/
def splitLine
    (inComment : Bool)
    (line : List Char) : List (List Char) × Bool :=
  if !inComment && isPreprocessor line then ([line], inComment)
  else
    let (atoms, open?) := Atom.ofLine inComment line
    let (first, more) := pieces atoms
    match (first :: more).filter (fun piece => !isAllBlank piece) with
    | [] => ([[]], open?)
    | kept => (kept, open?)

/-- Break every line of a list at its braces. -/
def splitLines (inComment : Bool) :
    List (List Char) → List (List Char) × Bool
  | [] => ([], inComment)
  | line :: rest =>
      let (broken, open?) := splitLine inComment line
      let (more, left) := splitLines open? rest
      (broken ++ more, left)

/-- Break every line of a text at its braces. -/
def layoutBraces (code : List Char) : List (List Char) × Bool :=
  splitLines false (fields '\n' code)

/-! ## Indentation -/

/-- Four spaces for every open brace. -/
def indentation (level : Int) : List Char :=
  List.replicate (4 * level.toNat) ' '

/-- The level at which a line with this text is written. -/
def levelOf (level : Int) (text : List Char) : Int :=
  if text.contains '}' then level - 1 else level

/-- The level behind a line with this text. -/
def levelAfter (level : Int) (text : List Char) : Int :=
  if text.contains '{' then levelOf level text + 1 else levelOf level text

/-- Indent one line and return the level behind it.  A line without text stays
empty. -/
def indentLine (level : Int) (line : List Char) : List Char × Int :=
  let text := trim line
  (if text.isEmpty then [] else indentation (levelOf level text) ++ text,
    levelAfter level text)

/-- Indent lines one after another and return the level behind them. -/
def indentLines (level : Int) :
    List (List Char) → List (List Char) × Int
  | [] => ([], level)
  | line :: rest =>
      let (written, next) := indentLine level line
      let (more, left) := indentLines next rest
      (written :: more, left)

/-! ## Blank lines -/

/-- How many characters of a run of blanks lie before and on its last line
end. -/
def throughLastLineEnd (run : List Char) : Nat :=
  (dropTrailing (· != '\n') run).length

/-- At a line end, find the blanks up to the last line end of the run if the
run has at least three line ends. -/
def blankLines : Search := fun _ text =>
  match text with
  | '\n' :: rest =>
      let run := '\n' :: rest.takeWhile isBlank
      if 3 ≤ run.count '\n' then
        some ⟨throughLastLineEnd run, ['\n', '\n']⟩
      else none
  | _ => none

/-- Shrink every run of blank lines to one blank line. -/
def collapseBlankLines (code : List Char) : List Char :=
  replaceAll blankLines code

/-! ## The formatter -/

/-- What a formatter remembers between lines. -/
structure Formatter where
  /-- How many braces are open; negative behind stray closing braces. -/
  indentLevel : Int := 0
  /-- A block comment is open. -/
  inBlockComment : Bool := false
deriving Repr, DecidableEq

namespace Formatter

/-- Break one line at its braces. -/
def splitLine
    (formatter : Formatter)
    (line : List Char) : List (List Char) × Formatter :=
  let (broken, open?) := Shader.splitLine formatter.inBlockComment line
  (broken, { formatter with inBlockComment := open? })

/-- Break every line of a text at its braces, outside comments at first. -/
def layoutBraces
    (formatter : Formatter)
    (code : List Char) : List (List Char) × Formatter :=
  let (broken, open?) := Shader.layoutBraces code
  (broken, { formatter with inBlockComment := open? })

/-- Indent one line. -/
def formatLine
    (formatter : Formatter)
    (line : List Char) : List Char × Formatter :=
  let (written, level) := indentLine formatter.indentLevel line
  (written, { formatter with indentLevel := level })

/-- Format a whole text, starting at level zero. -/
def formatCode
    (_ : Formatter)
    (code : List Char) : List Char × Formatter :=
  let (broken, open?) := Shader.layoutBraces code
  let (written, level) := indentLines 0 broken
  (trim (collapseBlankLines (joinFields ['\n'] written)), ⟨level, open?⟩)

end Formatter

/-- Format shader code. -/
def format (code : List Char) : List Char :=
  (Formatter.formatCode {} code).1

end Shader
end ShaderLift
