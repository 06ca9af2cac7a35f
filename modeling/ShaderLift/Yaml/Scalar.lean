import ShaderLift.Yaml.Character
import ShaderLift.Yaml.Fault

/-!
# Scalars of a document

Plain scalars, quoted scalars and block scalars.  Every function takes a scalar
off the front of a text and returns what it reads and what is left.  Lines
inside plain and quoted scalars are folded: one line end is a space, and each
further one is a line feed.
-/

namespace ShaderLift
namespace Yaml

/-! ## Plain scalars -/

/-- The characters that delimit collections on one line. -/
def isFlowMark (c : Char) : Bool :=
  c == ',' || c == '[' || c == ']' || c == '{' || c == '}'

/-- A plain word ends before this text: at white space, at a colon that ends a
key, and inside flow collections at their marks. -/
def plainStops (inFlow : Bool) (text : List Char) : Bool :=
  match text with
  | [] => true
  | c :: rest =>
      isWhite c ||
        (c == ':' && (atWordEnd rest || (inFlow && rest.head?.any isFlowMark))) ||
        (inFlow && (isFlowMark c || c == '?'))

/-- Take a plain word. -/
def takePlainWord (inFlow : Bool) : List Char → List Char × List Char
  | [] => ([], [])
  | c :: rest =>
      if plainStops inFlow (c :: rest) then ([], c :: rest)
      else
        let (word, left) := takePlainWord inFlow rest
        (c :: word, left)

/-- What stands between two words of a plain scalar. -/
structure Spacing where
  /-- What it is read as; nothing if the scalar ends here. -/
  text : List Char
  /-- A line end was passed. -/
  broken : Bool
  /-- How many spaces stand on the last line. -/
  indent : Nat
  /-- What follows. -/
  rest : List Char
deriving Repr, DecidableEq

/-- Lines between two words, from the start of a line.  Returns the line ends
that are read, or nothing at a document mark. -/
def plainBreaks : Bool → Nat → List Char → Option (List Char) × Nat × List Char
  | _, indent, [] => (some [], indent, [])
  | atStart, indent, c :: rest =>
      if atStart && atDocumentMark (c :: rest) then (none, indent, c :: rest)
      else if c = ' ' then plainBreaks false (indent + 1) rest
      else if isBreak c then
        let (breaks, last, left) := plainBreaks true 0 rest
        (breaks.map (readBreak c :: ·), last, left)
      else (some [], indent, c :: rest)

/-- The line ends between two words as they are read: a lone line feed is a
space, and the first of several is dropped. -/
def foldBreaks (first : Char) (more : List Char) : List Char :=
  if first = '\n' then if more.isEmpty then [' '] else more
  else first :: more

/-- The spacing behind a plain word. -/
def plainSpacing (text : List Char) : Spacing :=
  let spaces := text.takeWhile (· == ' ')
  match text.dropWhile (· == ' ') with
  | [] => ⟨spaces, false, 0, []⟩
  | c :: rest =>
      if isBreak c then
        let (breaks, indent, left) := plainBreaks true 0 rest
        ⟨(breaks.map (foldBreaks (readBreak c))).getD [], true, indent, left⟩
      else ⟨spaces, false, 0, c :: rest⟩

/-- A scalar that has been read. -/
structure Scanned where
  text : List Char
  /-- A line end was passed behind the last character of the scalar. -/
  broken : Bool
  rest : List Char
deriving Repr, DecidableEq

/-- Take a plain scalar.  Outside flow collections its lines are indented by at
least `indent` spaces.  The fuel bounds the number of words. -/
def takePlain (inFlow : Bool) (indent : Nat) : Nat → List Char → Scanned
  | 0, text => ⟨[], false, text⟩
  | fuel + 1, text =>
      let (word, behind) := takePlainWord inFlow text
      let spacing := plainSpacing behind
      let ends :=
        spacing.text.isEmpty || spacing.rest.head? == some '#' ||
          (!inFlow && spacing.broken && spacing.indent < indent) ||
          plainStops inFlow spacing.rest
      if ends then ⟨word, spacing.broken, spacing.rest⟩
      else
        let more := takePlain inFlow indent fuel spacing.rest
        { more with text := word ++ spacing.text ++ more.text }

/-! ## Quoted scalars -/

/-- White space and lines inside a quoted scalar, behind a line end.  A
document mark at the start of a line is an error. -/
def quotedBreaks : Bool → List Char → Except Fault (List Char × List Char)
  | _, [] => .ok ([], [])
  | atStart, c :: rest =>
      if atStart && atDocumentMark (c :: rest) then .error .malformed
      else if c = ' ' || c = '\t' then quotedBreaks false rest
      else if isBreak c then do
        let (breaks, left) ← quotedBreaks true rest
        pure (readBreak c :: breaks, left)
      else .ok ([], c :: rest)

/-- White space inside a quoted scalar as it is read, and what follows. -/
def quotedSpacing (text : List Char) : Except Fault (List Char × List Char) :=
  let isSpace := fun c => c == ' ' || c == '\t'
  match text.dropWhile isSpace with
  | [] => .error .malformed
  | c :: rest =>
      if isBreak c then do
        let (breaks, left) ← quotedBreaks true rest
        pure (foldBreaks (readBreak c) breaks, left)
      else .ok (text.takeWhile isSpace, c :: rest)

/-- The character that a one-letter escape stands for. -/
def escapedChar? : Char → Option Char
  | '0' => some '\x00'
  | 'a' => some '\x07'
  | 'b' => some '\x08'
  | 't' => some '\t'
  | '\t' => some '\t'
  | 'n' => some '\n'
  | 'v' => some '\x0b'
  | 'f' => some '\x0c'
  | 'r' => some '\r'
  | 'e' => some '\x1b'
  | ' ' => some ' '
  | '"' => some '"'
  | '\\' => some '\\'
  | '/' => some '/'
  | 'N' => some '\x85'
  | '_' => some '\xa0'
  | 'L' => some '\u2028'
  | 'P' => some '\u2029'
  | _ => none

/-- How many digits a numeric escape has. -/
def escapeLength? : Char → Option Nat
  | 'x' => some 2
  | 'u' => some 4
  | 'U' => some 8
  | _ => none

/-- The value of a digit in base sixteen. -/
def hexValue? (c : Char) : Option Nat :=
  if c.isDigit then some (c.toNat - 48)
  else if 'a' ≤ c && c ≤ 'f' then some (c.toNat - 87)
  else if 'A' ≤ c && c ≤ 'F' then some (c.toNat - 55)
  else none

/-- Read a number of exactly so many digits in base sixteen. -/
def takeHex : Nat → Nat → List Char → Option (Nat × List Char)
  | 0, number, text => some (number, text)
  | _ + 1, _, [] => none
  | count + 1, number, c :: rest =>
      match hexValue? c with
      | none => none
      | some digit => takeHex count (16 * number + digit) rest

/-- The code is half of a surrogate pair. -/
def isHalf (code : Nat) : Bool :=
  0xD800 ≤ code && code ≤ 0xDFFF

/-- The character for private use that stands for half of a surrogate pair. -/
def standIn (half : Nat) : Char :=
  Char.ofNat (0xF0000 + (half - 0xD800))

/-- The character that has a code or stands for it. -/
def charOf (code : Nat) : Char :=
  if isHalf code then standIn code else Char.ofNat code

@[simp] theorem charOf_toNat (c : Char) : charOf c.toNat = c := by
  have whole : isHalf c.toNat = false := by
    have valid : c.toNat < 0xD800 ∨ 0xDFFF < c.toNat ∧ c.toNat < 0x110000 :=
      c.valid
    simp only [isHalf, Bool.and_eq_false_iff, decide_eq_false_iff_not]
    omega
  rw [charOf, whole, if_neg Bool.false_ne_true, Char.ofNat_toNat]

/-- Read an escape behind its backslash. -/
def takeEscape (text : List Char) : Except Fault (List Char × List Char) :=
  match text with
  | [] => .error .malformed
  | c :: rest =>
      match escapedChar? c, escapeLength? c with
      | some meaning, _ => .ok ([meaning], rest)
      | none, some length =>
          match takeHex length 0 rest with
          | none => .error .malformed
          | some (code, left) =>
              if code < 0x110000 then .ok ([charOf code], left)
              else .error (.codePoint code)
      | none, none =>
          if isBreak c then quotedBreaks true rest else .error .malformed

/-- Take a quoted scalar behind its opening quote.  The fuel bounds the number
of characters. -/
def takeQuoted (double : Bool) :
    Nat → List Char → Except Fault (List Char × List Char)
  | 0, _ => .error .malformed
  | _ + 1, [] => .error .malformed
  | fuel + 1, c :: rest =>
      if double && c == '"' then .ok ([], rest)
      else if !double && c == '\'' then
        match rest with
        | '\'' :: more => do
            let (text, left) ← takeQuoted double fuel more
            pure ('\'' :: text, left)
        | _ => .ok ([], rest)
      else if double && c == '\\' then do
        let (meaning, more) ← takeEscape rest
        let (text, left) ← takeQuoted double fuel more
        pure (meaning ++ text, left)
      else if isWhite c then do
        let (spacing, more) ← quotedSpacing (c :: rest)
        let (text, left) ← takeQuoted double fuel more
        pure (spacing ++ text, left)
      else do
        let (text, left) ← takeQuoted double fuel rest
        pure (c :: text, left)

/-! ## Block scalars -/

/-- What happens to line ends behind a block scalar. -/
inductive Chomping
  /-- One is kept. -/
  | clip
  /-- None is kept. -/
  | strip
  /-- All are kept. -/
  | keep
deriving Repr, DecidableEq

/-- The header of a block scalar. -/
structure BlockHeader where
  chomping : Chomping
  /-- Explicit indentation. -/
  increment : Option Nat
deriving Repr, DecidableEq

/-- A chomping mark. -/
def chomping? : Char → Option Chomping
  | '+' => some .keep
  | '-' => some .strip
  | _ => none

/-- An indentation mark; zero is refused. -/
def takeIncrement (text : List Char) :
    Except Fault (Option Nat × List Char) :=
  match text with
  | [] => .ok (none, [])
  | c :: rest =>
      if c = '0' then .error .malformed
      else if c.isDigit then .ok (some (c.toNat - 48), rest)
      else .ok (none, c :: rest)

/-- Read the marks of a header in either order. -/
def takeMarks (text : List Char) : Except Fault (BlockHeader × List Char) :=
  match text.head?.bind chomping? with
  | some chomping => do
      let (increment, rest) ← takeIncrement (text.drop 1)
      pure (⟨chomping, increment⟩, rest)
  | none => do
      let (increment, rest) ← takeIncrement text
      match increment, rest.head?.bind chomping? with
      | some _, some chomping => pure (⟨chomping, increment⟩, rest.drop 1)
      | _, _ => pure (⟨.clip, increment⟩, rest)

/-- Pass over the rest of a line that holds nothing but a comment, and its
line end. -/
def dropCommentLine (text : List Char) : Except Fault (List Char) :=
  let rest := text.dropWhile (· == ' ')
  let behind :=
    if rest.head? == some '#' then rest.dropWhile (fun c => !isBreak c) else rest
  match behind with
  | [] => .ok []
  | c :: left => if isBreak c then .ok left else .error .malformed

/-- Read a header behind its style mark, up to the end of its line. -/
def takeBlockHeader (text : List Char) :
    Except Fault (BlockHeader × List Char) := do
  let (header, rest) ← takeMarks text
  match rest with
  | [] => pure (header, [])
  | c :: _ =>
      if c = ' ' || isBreak c then
        let left ← dropCommentLine rest
        pure (header, left)
      else throw .malformed

/-- Lines and spaces before the first text of a block scalar: the line ends,
the widest indentation, the indentation of the last line, and what follows. -/
def leadingLines : Nat → Nat → List Char → List Char × Nat × Nat × List Char
  | widest, column, [] => ([], widest, column, [])
  | widest, column, c :: rest =>
      if c = ' ' then leadingLines (max widest (column + 1)) (column + 1) rest
      else if isBreak c then
        let (breaks, last, indent, left) := leadingLines widest 0 rest
        (readBreak c :: breaks, last, indent, left)
      else ([], widest, column, c :: rest)

/-- Blank lines and indentation of at most so many spaces: the line ends, the
column reached, and what follows. -/
def blockBreaks (indent : Nat) :
    Nat → List Char → List Char × Nat × List Char
  | column, [] => ([], column, [])
  | column, c :: rest =>
      if c = ' ' && column < indent then blockBreaks indent (column + 1) rest
      else if isBreak c then
        let (breaks, last, left) := blockBreaks indent 0 rest
        (readBreak c :: breaks, last, left)
      else ([], column, c :: rest)

/-- A space or a tab starts the text. -/
def startsIndented (text : List Char) : Bool :=
  text.head?.any fun c => c == ' ' || c == '\t'

/-- The lines of a block scalar from its first text on: what they are read as
so far, the last line end, the line ends behind it, and what follows.  The
fuel bounds the number of lines. -/
def blockLines
    (folded : Bool)
    (indent : Nat) :
    Nat → List Char → List Char → List Char × List Char × List Char × List Char
  | 0, breaks, text => ([], [], breaks, text)
  | fuel + 1, breaks, text =>
      let line := text.takeWhile fun c => !isBreak c
      let (lineEnd, behind) : List Char × List Char :=
        match text.dropWhile fun c => !isBreak c with
        | [] => ([], [])
        | c :: rest => ([readBreak c], rest)
      let (more, column, left) := blockBreaks indent 0 behind
      if column = indent && !left.isEmpty then
        let isFolded :=
          folded && lineEnd == ['\n'] && !startsIndented text &&
            !startsIndented left
        let joint :=
          if isFolded then if more.isEmpty then [' '] else [] else lineEnd
        let (rest, last, tail, behind) := blockLines folded indent fuel more left
        (breaks ++ line ++ joint ++ rest, last, tail, behind)
      else (breaks ++ line, lineEnd, more, left)

/-- Take a block scalar behind its style mark, inside a collection indented by
`parent` spaces less one. -/
def takeBlock
    (folded : Bool)
    (parent : Nat)
    (text : List Char) : Except Fault (List Char × List Char) := do
  let (header, behind) ← takeBlockHeader text
  let least := max parent 1
  let (indent, breaks, column, left) : Nat × List Char × Nat × List Char :=
    match header.increment with
    | none =>
        let (breaks, widest, column, left) := leadingLines 0 0 behind
        (max least widest, breaks, column, left)
    | some increment =>
        let indent := least + increment - 1
        let (breaks, column, left) := blockBreaks indent 0 behind
        (indent, breaks, column, left)
  let (body, lineEnd, tail, rest) :=
    if column = indent && !left.isEmpty then
      blockLines folded indent (left.length + 1) breaks left
    else ([], [], breaks, left)
  let ending :=
    match header.chomping with
    | .strip => []
    | .clip => lineEnd
    | .keep => lineEnd ++ tail
  pure (body ++ ending, rest)

end Yaml
end ShaderLift
