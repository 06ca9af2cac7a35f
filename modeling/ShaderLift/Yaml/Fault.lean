import ShaderLift.Document.Calendar
import ShaderLift.Text.Integer

/-!
# Faults of a document

A document that breaks the rules of the format is malformed.  A document may
also follow them all and still hold a scalar that has no value: a day that the
calendar does not have, a number without digits, a code that no character has.
-/

namespace ShaderLift
namespace Yaml

/-- Why a document has no value. -/
inductive Fault
  /-- The text breaks the rules of the format. -/
  | malformed
  /-- An escape gives a code that no character has. -/
  | codePoint (code : Nat)
  /-- A date or a moment that does not exist. -/
  | calendar (error : CalendarError)
  /-- An integer that cannot be read. -/
  | integer (error : Text.IntegerError)
  /-- Text that is tagged as a number and is none. -/
  | notDouble (text : String)
  /-- Text that is tagged as a truth value and is none. -/
  | notBool (text : String)
  /-- Text that is tagged as a moment and is none. -/
  | notMoment
  /-- Nothing where a number is expected. -/
  | noNumber
  /-- The reader fails in a way of its own. -/
  | other (detail : String)
deriving Repr, DecidableEq

/-- The greatest code that an escape is compared with before it is refused. -/
def largestCode : Nat :=
  0x7FFFFFFF

/-- The wording of a fault. -/
def Fault.message : Fault → String
  | .malformed => "malformed document"
  | .codePoint code =>
      if largestCode < code then "Python int too large to convert to C int"
      else "chr() arg not in range(0x110000)"
  | .calendar error => error.message
  | .integer error => error.message
  | .notDouble text => s!"could not convert string to float: {Text.quoted text}"
  | .notBool text => Text.quoted text
  | .notMoment => "'NoneType' object has no attribute 'groupdict'"
  | .noNumber => "string index out of range"
  | .other detail => detail

end Yaml
end ShaderLift
