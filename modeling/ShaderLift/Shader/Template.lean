import ShaderLift.Text.Character
import ShaderLift.Text.Integer
import ShaderLift.Text.Quoted

/-!
# Replacement templates

The names that replace the output parameter and the coordinate are templates.
A text without a backslash stands for itself.  After a backslash come control
escapes, octal codes and references: `\g<0>` stands for the replaced text, and
no other group exists.  A template is read whole before anything is replaced.

Symbols are read one ahead: a backslash at the very end is found as soon as
the symbol before it is taken, before that symbol is looked at.
-/

namespace ShaderLift
namespace Shader
namespace Template

open Text

/-- A part of a template that has been read. -/
inductive Part
  /-- A character that stands for itself. -/
  | literal (c : Char)
  /-- The text that is replaced. -/
  | wholeMatch
deriving Repr, DecidableEq

/-- What may be wrong at a place of a template. -/
inductive Fault
  | missingOpening
  | missingName
  | unterminatedName
  | badName (name : String)
  | invalidReference (number : Nat)
  | octalTooLarge (digits : String)
  | badEscape (letter : Char)
  | danglingBackslash
deriving Repr, DecidableEq

/-- Why a template cannot be read. -/
inductive Error
  /-- A fault at a position, with line and column if the template has more
  than one line. -/
  | malformed (fault : Fault) (position : Nat) (place : Option (Nat × Nat))
  /-- A reference to a group by a name that no group has. -/
  | unknownName (name : String)
deriving Repr, DecidableEq

/-- The wording of a fault. -/
def Fault.message : Fault → String
  | .missingOpening => "missing <"
  | .missingName => "missing group name"
  | .unterminatedName => "missing >, unterminated name"
  | .badName name => s!"bad character in group name {quoted name}"
  | .invalidReference number => s!"invalid group reference {number}"
  | .octalTooLarge digits =>
      "octal escape value \\" ++ digits ++ " outside of range 0-0o377"
  | .badEscape letter => "bad escape \\" ++ letter.toString
  | .danglingBackslash => "bad escape (end of pattern)"

/-- The wording of an error. -/
def Error.message : Error → String
  | .malformed fault position none =>
      s!"{fault.message} at position {position}"
  | .malformed fault position (some (line, column)) =>
      s!"{fault.message} at position {position} (line {line}, column {column})"
  | .unknownName name => s!"unknown group name {quoted name}"

/-- Line and column of a position, if the template has more than one line. -/
def placeOf (template : List Char) (position : Nat) : Option (Nat × Nat) :=
  if template.contains '\n' then
    let before := template.take position
    let onLine := (before.reverse.takeWhile (· != '\n')).length
    some (before.count '\n' + 1, onLine + 1)
  else none

/-! ## Symbols -/

/-- A character of a template, alone or behind a backslash. -/
inductive Symbol
  | plain (c : Char)
  | escaped (c : Char)
deriving Repr, DecidableEq

/-- How many characters a symbol takes. -/
def Symbol.width : Symbol → Nat
  | .plain _ => 1
  | .escaped _ => 2

/-- The characters of a symbol. -/
def Symbol.text : Symbol → List Char
  | .plain c => [c]
  | .escaped c => ['\\', c]

/-- The symbols of a template, and whether a lone backslash is left. -/
def symbols : List Char → List Symbol × Bool
  | [] => ([], false)
  | ['\\'] => ([], true)
  | '\\' :: c :: cs =>
      let (rest, dangling) := symbols cs
      (.escaped c :: rest, dangling)
  | c :: cs =>
      let (rest, dangling) := symbols cs
      (.plain c :: rest, dangling)

/-! ## Reading -/

/-- The place of the reader: the symbols ahead, their position, and whether a
lone backslash follows them. -/
structure Reader where
  ahead : List Symbol
  position : Nat
  dangling : Bool
deriving Repr, DecidableEq

/-- A fault and its position. -/
abbrev Located :=
  Fault × Nat

/-- Take one symbol.  A lone backslash right behind it is a fault. -/
def Reader.take (reader : Reader) :
    Except Located (Option Symbol × Reader) :=
  match reader.ahead with
  | [] => .ok (none, reader)
  | symbol :: rest =>
      let position := reader.position + symbol.width
      if rest.isEmpty && reader.dangling then
        .error (.danglingBackslash, position)
      else .ok (some symbol, { reader with ahead := rest, position := position })

/-- The value of an octal digit. -/
def octalValue? (symbol : Option Symbol) : Option Nat :=
  match symbol with
  | some (.plain c) =>
      if '0' ≤ c && c ≤ '7' then some (c.toNat - 48) else none
  | _ => none

/-- The value of a decimal digit of ASCII. -/
def digitValue? (symbol : Option Symbol) : Option Nat :=
  match symbol with
  | some (.plain c) => if c.isDigit then some (c.toNat - 48) else none
  | _ => none

/-- Read a group name up to its closing bracket.  `start` is where the name
starts, and the fuel bounds the number of its symbols. -/
def readName (start : Nat) :
    Nat → List Char → Reader → Except Located (List Char × Reader)
  | 0, _, _ => .error (.unterminatedName, start)
  | fuel + 1, name, reader => do
      match ← reader.take with
      | (none, _) =>
          if name.isEmpty then .error (.missingName, start)
          else .error (.unterminatedName, start)
      | (some (.plain '>'), next) =>
          if name.isEmpty then .error (.missingName, start)
          else .ok (name, next)
      | (some symbol, next) => readName start fuel (name ++ symbol.text) next

/-- What a group name refers to: the whole match, or an error. -/
def resolveName
    (start : Nat)
    (name : List Char) : Except (Located ⊕ String) Part :=
  if isIdentifier name then .error (.inr (String.ofList name))
  else
    match readInteger name with
    | .error _ => .error (.inl (.badName (String.ofList name), start))
    | .ok number =>
        if number < 0 then .error (.inl (.badName (String.ofList name), start))
        else if number = 0 then .ok .wholeMatch
        else .error (.inl (.invalidReference number.toNat, start))

/-- Read a reference `\g<...>` behind its letter. -/
def readReference (reader : Reader) :
    Except (Located ⊕ String) (Part × Reader) := do
  match reader.ahead with
  | .plain '<' :: _ =>
      let (_, inside) ← (reader.take).mapError Sum.inl
      let start := inside.position
      let (name, next) ←
        (readName start (inside.ahead.length + 1) [] inside).mapError Sum.inl
      let part ← resolveName start name
      pure (part, next)
  | _ => .error (.inl (.missingOpening, reader.position))

/-- The character of a control escape. -/
def controlEscape? : Char → Option Char
  | 'a' => some '\x07'
  | 'b' => some '\x08'
  | 'f' => some '\x0c'
  | 'n' => some '\n'
  | 'r' => some '\r'
  | 't' => some '\t'
  | 'v' => some '\x0b'
  | '\\' => some '\\'
  | _ => none

/-- Read up to two more octal digits behind `\0`. -/
def readZeroEscape (reader : Reader) : Except Located (Part × Reader) := do
  match octalValue? reader.ahead.head? with
  | none => pure (.literal (Char.ofNat 0), reader)
  | some first =>
      let (_, reader) ← reader.take
      match octalValue? reader.ahead.head? with
      | none => pure (.literal (Char.ofNat first), reader)
      | some second =>
          let (_, reader) ← reader.take
          pure (.literal (Char.ofNat (8 * first + second)), reader)

/-- Read what follows a backslash and a digit other than zero: an octal code of
three digits, or a reference by number.  `start` is where the backslash is. -/
def readDigitEscape
    (start digit : Nat)
    (reader : Reader) : Except Located (Part × Reader) := do
  match digitValue? reader.ahead.head? with
  | none => .error (.invalidReference digit, start + 1)
  | some second =>
      let (_, reader) ← reader.take
      let third :=
        if digit < 8 && second < 8 then octalValue? reader.ahead.head? else none
      match third with
      | none => .error (.invalidReference (10 * digit + second), start + 1)
      | some third =>
          let (_, reader) ← reader.take
          let code := 64 * digit + 8 * second + third
          if 0o377 < code then
            .error (.octalTooLarge s!"{digit}{second}{third}", start)
          else pure (.literal (Char.ofNat code), reader)

/-- Read an escape behind its backslash and character. -/
def readEscape
    (start : Nat)
    (c : Char)
    (reader : Reader) : Except (Located ⊕ String) (List Part × Reader) := do
  if c = 'g' then
    let (part, next) ← readReference reader
    pure ([part], next)
  else if c = '0' then
    let (part, next) ← (readZeroEscape reader).mapError Sum.inl
    pure ([part], next)
  else if c.isDigit then
    let (part, next) ←
      (readDigitEscape start (c.toNat - 48) reader).mapError Sum.inl
    pure ([part], next)
  else
    match controlEscape? c with
    | some control => pure ([.literal control], reader)
    | none =>
        if c.isAlpha then .error (.inl (.badEscape c, start))
        else pure ([.literal '\\', .literal c], reader)

/-- Read all parts; the fuel bounds the number of symbols. -/
def readParts : Nat → Reader → Except (Located ⊕ String) (List Part)
  | 0, _ => .ok []
  | fuel + 1, reader => do
      match ← (reader.take).mapError Sum.inl with
      | (none, _) => pure []
      | (some (.plain c), next) =>
          let rest ← readParts fuel next
          pure (.literal c :: rest)
      | (some (.escaped c), next) =>
          let (read, next) ← readEscape reader.position c next
          let rest ← readParts fuel next
          pure (read ++ rest)

/-- Read a template. -/
def parse (template : List Char) : Except Error (List Part) :=
  let (ahead, dangling) := symbols template
  if ahead.isEmpty && dangling then
    .error (.malformed .danglingBackslash 0 (placeOf template 0))
  else
    match readParts (ahead.length + 1) ⟨ahead, 0, dangling⟩ with
    | .ok parts => .ok parts
    | .error (.inl (fault, position)) =>
        .error (.malformed fault position (placeOf template position))
    | .error (.inr name) => .error (.unknownName name)

/-- Write a template for a replaced text. -/
def expand (replaced : List Char) (parts : List Part) : List Char :=
  parts.flatMap fun
    | .literal c => [c]
    | .wholeMatch => replaced

end Template
end Shader
end ShaderLift
