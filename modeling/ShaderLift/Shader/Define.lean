import ShaderLift.Log
import ShaderLift.Text.Blank
import ShaderLift.Text.Character
import ShaderLift.Text.Lines
import ShaderLift.Text.Replace

/-!
# Define directives

A define directive starts on a line whose first characters other than spaces
and tabs are `#define`, and it goes on as long as its lines end in a backslash.
Every directive is taken out of a source.  Those that give a name to a name,
with at most one member, are recorded as aliases; all others are dropped with
a warning.
-/

namespace ShaderLift
namespace Shader

open Text

/-- A name and what it stands for. -/
structure Define where
  name : String
  value : String
deriving Repr, DecidableEq

namespace Define

/-- Aliases in the order of their first definition, each with its last
value. -/
abbrev Table :=
  List Define

/-- What an alias stands for. -/
def Table.find? (table : Table) (name : String) : Option String :=
  (List.find? (fun define => define.name == name) table).map Define.value

/-- Record a definition: a known alias keeps its place, a new one is last. -/
def Table.set : Table → Define → Table
  | [], added => [added]
  | define :: rest, added =>
      if define.name = added.name then added :: rest
      else define :: Table.set rest added

/-! ## Directives as lines -/

/-- The word that opens a directive. -/
def keyword : List Char :=
  "#define".toList

/-- The line opens a define directive. -/
def isDefineLine (line : List Char) : Bool :=
  match dropExact keyword (line.dropWhile isSpaceOrTab) with
  | none => false
  | some rest => !rest.head?.any isWord

/-- The line ends in a backslash, so that its directive goes on. -/
def isContinued (line : List Char) : Bool :=
  ['\\', '\n'].isSuffixOf line || ['\\', '\r', '\n'].isSuffixOf line

/-- A part of a source: a directive with all its lines, or a line outside. -/
inductive Part
  | directive (text : List Char)
  | line (text : List Char)
deriving Repr, DecidableEq

/-- Sort lines into directives and other lines.  The first argument is the
directive that is still open, if there is one. -/
def partsOfLines : Option (List Char) → List (List Char) → List Part
  | none, [] => []
  | some begun, [] => [.directive begun]
  | none, line :: rest =>
      if isDefineLine line then
        if isContinued line then partsOfLines (some line) rest
        else .directive line :: partsOfLines none rest
      else .line line :: partsOfLines none rest
  | some begun, line :: rest =>
      if isContinued line then partsOfLines (some (begun ++ line)) rest
      else .directive (begun ++ line) :: partsOfLines none rest

/-- The directives and the other lines of a source, in order. -/
def parts (source : List Char) : List Part :=
  partsOfLines none (closedLines source)

/-- The text of a part if it is a line outside directives. -/
def Part.line? : Part → Option (List Char)
  | .directive _ => none
  | .line text => some text

/-- The text of a part if it is a directive. -/
def Part.directive? : Part → Option (List Char)
  | .directive text => some text
  | .line _ => none

/-- The source without its define directives. -/
def strip (source : List Char) : List Char :=
  ((parts source).filterMap Part.line?).flatten

/-- The directives of a source, without the line ends that close them. -/
def directives (source : List Char) : List (List Char) :=
  ((parts source).filterMap Part.directive?).map (dropTrailing (· == '\n'))

/-! ## Simple directives -/

/-- Take a name off a text: a letter or underscore, then word characters. -/
def takeName : List Char → Option (List Char × List Char)
  | [] => none
  | c :: cs =>
      if isNameStart c then some (c :: cs.takeWhile isWord, cs.dropWhile isWord)
      else none

/-- Pass over spaces and tabs, of which there must be one. -/
def dropGap : List Char → Option (List Char)
  | [] => none
  | c :: cs => if isSpaceOrTab c then some (cs.dropWhile isSpaceOrTab) else none

/-- Take a name with at most one member off a text. -/
def takeReference (text : List Char) : Option (List Char × List Char) :=
  match takeName text with
  | none => none
  | some (base, '.' :: rest) =>
      match takeName rest with
      | none => some (base, '.' :: rest)
      | some (member, left) => some (base ++ '.' :: member, left)
  | some (base, rest) => some (base, rest)

/-- Spaces, tabs and carriage returns may close a directive. -/
def isPadding (c : Char) : Bool :=
  isSpaceOrTab c || c == '\r'

/-- What may follow the value: padding, or one comment that reaches the end of
the line. -/
def isEnding (text : List Char) : Bool :=
  text.all isPadding ||
    match text.dropWhile isSpaceOrTab with
    | '/' :: '/' :: remark => !remark.contains '\n'
    | '/' :: '*' :: remark =>
        !remark.contains '\n' &&
          ['*', '/'].isSuffixOf (dropTrailing isPadding remark)
    | _ => false

/-- Read a directive that gives a name to a name. -/
def ofDirective? (directive : List Char) : Option Define := do
  let rest ← dropExact keyword (directive.dropWhile isSpaceOrTab)
  let rest ← dropGap rest
  let (name, rest) ← takeName rest
  let rest ← dropGap rest
  let (value, rest) ← takeReference rest
  if isEnding rest then
    some ⟨String.ofList name, String.ofList value⟩
  else none

/-! ## Extraction -/

/-- Record the directives of a list, in order. -/
def record : Table → List (List Char) → Logged Table
  | table, [] => pure table
  | table, directive :: rest => do
      match ofDirective? directive with
      | none =>
          let text := String.ofList (trim directive)
          Logged.write .warning s!"Dropping unsupported define: {text}"
          record table rest
      | some define =>
          let name := define.name
          let value := define.value
          if let some old := table.find? name then
            Logged.write .debug s!"Redefinition of {name}: {old} -> {value}"
          Logged.write .debug s!"Found define: {name} = {value}"
          record (table.set define) rest

/-- Collect the aliases of a source and take all its directives out. -/
def extract (source : List Char) : Logged (Table × List Char) := do
  let table ← record [] (directives source)
  pure (table, strip source)

end Define
end Shader
end ShaderLift
