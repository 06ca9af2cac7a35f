import ShaderLift.Document.Value
import ShaderLift.Number.Shortest
import ShaderLift.Text.Integer
import ShaderLift.Text.Quoted

/-!
# Values as text

A value that stands where a name is expected is written as text.  Text is
itself there; inside lists and mappings it is quoted, and dates show their
fields.  The items of a set are written in the order of the document.  A value
with an integer of too many digits has no text.  How deep lists and mappings
may be nested is not limited here: a program that runs out of stack on them is
not described.
-/

namespace ShaderLift
namespace Document

/-- Numbers are written positionally from four zeros behind the point up to
sixteen digits before it. -/
def doubleStyle : Double.DecimalStyle :=
  ⟨-3, 16⟩

/-- The fields of a date. -/
def dateFields (date : Date) : String :=
  s!"datetime.date({date.year}, {date.month}, {date.day})"

/-- The fields of a moment; seconds and microseconds of zero at the end are
left out. -/
def momentFields (moment : Moment) : String :=
  let date := moment.date
  let fine :=
    if moment.microsecond != 0 then
      s!", {moment.second}, {moment.microsecond}"
    else if moment.second != 0 then s!", {moment.second}"
    else ""
  let zone :=
    match moment.offset with
    | none => ""
    | some 0 => ", tzinfo=datetime.timezone.utc"
    | some minutes => s!", tzinfo=datetime.timezone({durationText minutes})"
  s!"datetime.datetime({date.year}, {date.month}, {date.day}, " ++
    s!"{moment.hour}, {moment.minute}{fine}{zone})"

namespace Value

mutual

/-- A value as it is written inside a list or a mapping. -/
def literal : Value → String
  | .null => "None"
  | .bool value => if value then "True" else "False"
  | .integer value => toString value
  | .double value => value.text doubleStyle
  | .text value => Text.quoted value
  | .bytes value => "b" ++ Text.quotedBytes value
  | .date value => dateFields value
  | .moment value => momentFields value
  | .list items => "[" ++ listLiterals items ++ "]"
  | .mapping entries => "\x7b" ++ entryLiterals entries ++ "\x7d"
  | .set [] => "set()"
  | .set items => "\x7b" ++ listLiterals items ++ "\x7d"
  | .pair key value => "(" ++ key.literal ++ ", " ++ value.literal ++ ")"
  | .enclosing isMapping => if isMapping then "\x7b...\x7d" else "[...]"

/-- Items divided by commas. -/
def listLiterals : List Value → String
  | [] => ""
  | [item] => item.literal
  | item :: rest => item.literal ++ ", " ++ listLiterals rest

/-- Entries divided by commas. -/
def entryLiterals : List (Value × Value) → String
  | [] => ""
  | [entry] => entryLiteral entry
  | entry :: rest => entryLiteral entry ++ ", " ++ entryLiterals rest

/-- A key, a colon and a value. -/
def entryLiteral : Value × Value → String
  | (key, value) => key.literal ++ ": " ++ value.literal

end

/-- A value as text. -/
def display : Value → String
  | .text value => value
  | .date value => value.text
  | .moment value => value.text " "
  | value => value.literal

mutual

/-- No integer in the value has too many digits to be written. -/
def hasText : Value → Bool
  | .integer value => value.natAbs < tenTo Text.digitLimit
  | .list items => haveTexts items
  | .mapping entries => entriesHaveTexts entries
  | .set items => haveTexts items
  | .pair key value => key.hasText && value.hasText
  | _ => true

/-- All items can be written. -/
def haveTexts : List Value → Bool
  | [] => true
  | item :: rest => item.hasText && haveTexts rest

/-- All entries can be written. -/
def entriesHaveTexts : List (Value × Value) → Bool
  | [] => true
  | entry :: rest => entryHasText entry && entriesHaveTexts rest

/-- A key and its value can be written. -/
def entryHasText : Value × Value → Bool
  | (key, value) => key.hasText && value.hasText

end

/-- The type of a value in the wording of messages. -/
def typeName : Value → String
  | .null => "NoneType"
  | .bool _ => "bool"
  | .integer _ => "int"
  | .double _ => "float"
  | .text _ => "str"
  | .bytes _ => "bytes"
  | .date _ => "datetime.date"
  | .moment _ => "datetime.datetime"
  | .list _ => "list"
  | .mapping _ => "dict"
  | .set _ => "set"
  | .pair _ _ => "tuple"
  | .enclosing isMapping => if isMapping then "dict" else "list"

end Value
end Document
end ShaderLift
