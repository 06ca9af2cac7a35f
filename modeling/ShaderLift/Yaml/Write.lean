import ShaderLift.Text.Quoted
import ShaderLift.Yaml.Character
import ShaderLift.Yaml.Resolve

/-!
# Writing scalars

A text is written plain where a reader takes it for text again, between single
quotes where its lines and characters allow that, and between double quotes
otherwise.  A line that has grown past the eightieth column is folded at a
space; a folded line goes on behind four spaces.
-/

namespace ShaderLift
namespace Yaml

/-! ## Styles -/

/-- How a scalar is written. -/
inductive Style
  | plain
  | single
  | double
deriving Repr, DecidableEq

/-- A character that ends a word for the writer. -/
def isGap (c : Char) : Bool :=
  c == '\x00' || c == '\r' || isWhite c

/-- A word may end before this text, as the writer sees it. -/
def atGap (text : List Char) : Bool :=
  text.head?.all isGap

/-- The characters that start something else than a plain scalar. -/
def indicatorChars : List Char :=
  "#,[]\x7b\x7d&*!|>'\"%@`".toList

/-- A colon before a gap or a number sign behind one divides a plain scalar;
`afterGap` tells whether the text stands behind a gap. -/
def hasDivider (afterGap : Bool) : List Char → Bool
  | [] => false
  | c :: rest =>
      (c == ':' && atGap rest) || (c == '#' && afterGap) ||
        hasDivider (isGap c) rest

/-- Written plain, the text would be taken for something else than a scalar. -/
def hasIndicator (text : List Char) : Bool :=
  match text with
  | [] => false
  | c :: rest =>
      "---".toList.isPrefixOf text || "...".toList.isPrefixOf text ||
        indicatorChars.contains c ||
        ((c == '?' || c == ':' || c == '-') && atGap rest) ||
        hasDivider (isGap c) rest

/-- The character can stand in a document as it is. -/
def isWritable (c : Char) : Bool :=
  let n := c.toNat
  n == 0x0A || (0x20 ≤ n && n ≤ 0x7E) || n == 0x85 ||
    (0xA0 ≤ n && n ≤ 0xD7FF) || (0xE000 ≤ n && n ≤ 0xFFFD && n != 0xFEFF) ||
    (0x10000 ≤ n && n < 0x10FFFF)

/-- Somewhere in the text `left` holds of a character and `right` of the next
one. -/
def hasPair (left right : Char → Bool) : List Char → Bool
  | [] => false
  | [_] => false
  | a :: b :: rest => (left a && right b) || hasPair left right (b :: rest)

/-- The character is a space. -/
def isSpace (c : Char) : Bool :=
  c == ' '

/-- A space or a line end, which is lost at an end of a plain scalar. -/
def isEdge (c : Char) : Bool :=
  isSpace c || isBreak c

/-- The text can be written plain. -/
def allowsPlain (text : List Char) : Bool :=
  resolvePlain text == .text && !hasIndicator text && text.all isWritable &&
    !text.any isBreak && !text.head?.any isEdge && !text.getLast?.any isEdge

/-- The text can be written between single quotes. -/
def allowsSingle (text : List Char) : Bool :=
  text.all isWritable && !hasPair isBreak isSpace text &&
    !hasPair isSpace isBreak text

/-- The style that a text is written in. -/
def styleOf (text : List Char) : Style :=
  if allowsPlain text then .plain
  else if allowsSingle text then .single
  else .double

/-! ## Folding -/

/-- The column that a line may grow to before it is folded. -/
def lineWidth : Nat :=
  80

/-- What a folded line goes on behind. -/
def margin : List Char :=
  List.replicate 4 ' '

/-- The end of a line and the start of the next one. -/
def fold : List Char :=
  '\n' :: margin

/-- Write the rest of a plain scalar from a column on. -/
def writePlain (afterSpace : Bool) (column : Nat) : List Char → List Char
  | [] => []
  | c :: rest =>
      if c == ' ' && !afterSpace && rest.head? != some ' ' &&
          lineWidth < column then
        fold ++ writePlain true margin.length rest
      else c :: writePlain (c == ' ') (column + 1) rest

/-- Write the rest of a scalar between single quotes from a column on, where
`previous` is the character before it.  A line end that opens a run of them is
written twice if it is a line feed, since one alone reads as a space. -/
def writeSingle
    (previous : Option Char)
    (column : Nat) : List Char → List Char
  | [] => []
  | c :: rest =>
      if isBreak c then
        let opening :=
          if c == '\n' && !previous.any isBreak then ['\n', c] else [c]
        if rest.head?.any isBreak then opening ++ writeSingle (some c) 0 rest
        else opening ++ margin ++ writeSingle (some c) margin.length rest
      else if c == ' ' && previous.any (· != ' ') &&
          rest.head?.any (· != ' ') && lineWidth < column then
        fold ++ writeSingle (some c) margin.length rest
      else if c == '\'' then
        '\'' :: '\'' :: writeSingle (some c) (column + 2) rest
      else c :: writeSingle (some c) (column + 1) rest

/-- Between double quotes the character is written as it is. -/
def isVerbatim (c : Char) : Bool :=
  let n := c.toNat
  c != '"' && c != '\\' && n != 0xFEFF && !(n == 0x2028 || n == 0x2029) &&
    ((0x20 ≤ n && n ≤ 0x7E) || (0xA0 ≤ n && n ≤ 0xD7FF) ||
      (0xE000 ≤ n && n ≤ 0xFFFD))

/-- The letters that stand for single characters behind a backslash. -/
def escapeLetters : List (Char × Char) :=
  [('\x00', '0'), ('\x07', 'a'), ('\x08', 'b'), ('\t', 't'), ('\n', 'n'),
    ('\x0b', 'v'), ('\x0c', 'f'), ('\r', 'r'), ('\x1b', 'e'), ('"', '"'),
    ('\\', '\\'), ('\x85', 'N'), ('\u2028', 'L'), ('\u2029', 'P')]

/-- The upper-case digits of a character in base sixteen. -/
def upperHex (width : Nat) (c : Char) : List Char :=
  (Text.hexDigits width c.toNat).map Char.toUpper

/-- The escape of a character between double quotes. -/
def escape (c : Char) : List Char :=
  match escapeLetters.find? fun pair => pair.1 == c with
  | some (_, letter) => ['\\', letter]
  | none =>
      if c.toNat < 0x100 then '\\' :: 'x' :: upperHex 2 c
      else if c.toNat < 0x10000 then '\\' :: 'u' :: upperHex 4 c
      else '\\' :: 'U' :: upperHex 8 c

/-- Write the rest of a scalar between double quotes from a column on.
`isFirst` tells that nothing of it is written, `isCut` that what was written
last is an escape.  A line is folded behind a backslash, before a space or
next to an escape, and a space that starts a line stands behind another
backslash.  Neither the first nor the last character has a fold beside it. -/
def writeDouble
    (isFirst isCut : Bool)
    (column : Nat) : List Char → List Char
  | [] => []
  | c :: rest =>
      let mayFold := !isFirst && !rest.isEmpty
      if isVerbatim c then
        if mayFold && (c == ' ' || isCut) && lineWidth < column then
          let mark := if c == ' ' then ['\\'] else []
          ('\\' :: fold) ++ mark ++
            c :: writeDouble false false (margin.length + mark.length + 1) rest
        else c :: writeDouble false false (column + 1) rest
      else
        let written := escape c
        let next := column + written.length
        if mayFold && lineWidth + 1 < next then
          let mark := if rest.head? == some ' ' then ['\\'] else []
          written ++ ('\\' :: fold) ++ mark ++
            writeDouble false true (margin.length + mark.length) rest
        else written ++ writeDouble false true next rest

/-- Write a text as a scalar that starts at a column. -/
def writeScalar (column : Nat) (text : List Char) : List Char :=
  match styleOf text with
  | .plain => writePlain false column text
  | .single => '\'' :: writeSingle none (column + 1) text ++ ['\'']
  | .double => '"' :: writeDouble true true (column + 1) text ++ ['"']

/-! ## Records -/

/-- A list of records, each a mapping of names to texts. -/
abbrev Records :=
  List (List (String × String))

/-- One entry of a record: its margin, its name and its text. -/
def writeEntry (opening : List Char) (entry : String × String) : List Char :=
  let start := opening ++ entry.1.toList ++ [':', ' ']
  start ++ writeScalar start.length entry.2.toList ++ ['\n']

/-- One record: a dash opens its first line, two spaces every other. -/
def writeRecord : List (String × String) → List Char
  | [] => []
  | first :: rest =>
      writeEntry ['-', ' '] first ++ rest.flatMap (writeEntry [' ', ' '])

/-- The text of a document that holds records. -/
def writeRecords (records : Records) : List Char :=
  match records with
  | [] => ['[', ']', '\n']
  | records => records.flatMap writeRecord

end Yaml
end ShaderLift
