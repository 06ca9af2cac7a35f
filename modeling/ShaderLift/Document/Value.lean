import ShaderLift.Document.Calendar
import ShaderLift.Number.Double

/-!
# Document values

What a configuration document holds: scalars, lists, mappings, sets and pairs.
A mapping keeps its entries in the order of their first appearance, each with
the last value given to its key, and a set its items.  Numbers that are equal
are the same key, whatever their type.
-/

namespace ShaderLift
namespace Document

/-- A value of a document. -/
inductive Value
  | null
  | bool (value : Bool)
  | integer (value : Int)
  | double (value : Double)
  | text (value : String)
  | bytes (value : List UInt8)
  | date (value : Date)
  | moment (value : Moment)
  | list (items : List Value)
  | mapping (entries : List (Value × Value))
  | set (items : List Value)
  /-- A key and its value as an item of a list. -/
  | pair (key value : Value)
  /-- A list or mapping that is inside itself. -/
  | enclosing (isMapping : Bool)
deriving Repr, Inhabited

namespace Value

/-- The integer that a number is, if it is one. -/
def integer? : Value → Option Int
  | .bool value => some (if value then 1 else 0)
  | .integer value => some value
  | .double value => value.integer?
  | _ => none

/-- Two scalars are the same key of a mapping. -/
def isSameKey (left right : Value) : Bool :=
  match left, right with
  | .null, .null => true
  | .text a, .text b => a == b
  | .bytes a, .bytes b => a == b
  | .date a, .date b => a == b
  | .moment a, .moment b => a == b
  | .double a, .double b =>
      a == b || (left.integer? == some 0 && right.integer? == some 0)
  | a, b =>
      match a.integer?, b.integer? with
      | some m, some n => m == n
      | _, _ => false

/-- A value that is made of values. -/
def isCollection : Value → Bool
  | .list _ => true
  | .mapping _ => true
  | .set _ => true
  | .pair _ _ => true
  | .enclosing _ => true
  | _ => false

end Value

/-- The entries of a mapping in order. -/
abbrev Entries :=
  List (Value × Value)

namespace Entries

/-- Give a value to a key: a known key keeps its place, a new one is last. -/
def set : Entries → Value → Value → Entries
  | [], key, value => [(key, value)]
  | (known, old) :: rest, key, value =>
      if known.isSameKey key then (known, value) :: rest
      else (known, old) :: set rest key value

/-- The mapping that results from giving values to keys in order. -/
def ofPairs (pairs : List (Value × Value)) : Entries :=
  pairs.foldl (fun entries pair => set entries pair.1 pair.2) []

/-- The value of a key that is text. -/
def find? (entries : Entries) (key : String) : Option Value :=
  (List.find? (fun entry => entry.1.isSameKey (.text key)) entries).map Prod.snd

end Entries
end Document
end ShaderLift
