import ShaderLift.Dialect.Basic
import ShaderLift.Document.Display

/-!
# Dialects from documents

A document overrides fields of the built-in dialect.  Its keys are checked
first, then the fields in a fixed order, so that the first error does not
depend on the order of the document.  A value of any depth is taken: a program
that runs out of stack on one is not described.
-/

namespace ShaderLift
namespace Dialect

open Document

/-- Why a document is no dialect. -/
inductive DocumentError
  /-- Keys that name no field, in order. -/
  | unknownKeys (names : List String)
  /-- A key that names no field and is not even text. -/
  | keyNotText (typeName : String)
  /-- Keys that name no field and cannot be put in order. -/
  | keysNotOrdered (left right : String)
  /-- Keys that name no field and are moments, only some with an offset. -/
  | momentsNotOrdered
  | notText (field : String)
  | notMapping (field : String)
  | notTextMapping (field : String)
  | badOutput
  /-- The output variable holds a number that has too many digits. -/
  | numberTooLong
  | badIdentifiers
deriving Repr, DecidableEq

/-- The wording of an error. -/
def DocumentError.message : DocumentError → String
  | .unknownKeys names =>
      "Unknown dialect keys: " ++ String.intercalate ", " names
  | .keyNotText typeName =>
      s!"sequence item 0: expected str instance, {typeName} found"
  | .keysNotOrdered left right =>
      s!"'<' not supported between instances of '{left}' and '{right}'"
  | .momentsNotOrdered =>
      "can't compare offset-naive and offset-aware datetimes"
  | .notText field => s!"'{field}' must be a string"
  | .notMapping field => s!"'{field}' must be a mapping"
  | .notTextMapping field => s!"'{field}' entries must map strings to strings"
  | .badOutput => "'output_variable' needs exactly 'name' and 'type'"
  | .numberTooLong =>
      s!"Exceeds the limit ({Text.digitLimit} digits) for integer string " ++
        "conversion; use sys.set_int_max_str_digits() to increase the limit"
  | .badIdentifiers => "'canonical_identifiers' must be a list of strings"

/-! ## Keys -/

/-- The keys that name a field. -/
def knownKeys : List String :=
  ["version_directive", "precision", "frag_color", "frag_coord",
    "frag_coord_builtin", "uniforms", "output_variable", "macros",
    "canonical_identifiers"]

/-- The text of a value that is text. -/
def text? : Value → Option String
  | .text value => some value
  | _ => none

/-- The key names a field. -/
def isKnown (key : Value) : Bool :=
  (text? key).any knownKeys.contains

/-- Strings in the order of their characters. -/
def sortedStrings (names : List String) : List String :=
  names.mergeSort fun left right => decide (left ≤ right)

/-- A value is a number. -/
def isNumber : Value → Bool
  | .bool _ => true
  | .integer _ => true
  | .double _ => true
  | _ => false

/-- The numerator and the denominator of a number; an infinite one lies beyond
every finite one. -/
def numberRatio : Value → Int × Nat
  | .bool value => (if value then 1 else 0, 1)
  | .integer value => (value, 1)
  | .double (.finite negative significand exponent) =>
      let magnitude : Int := (significand * twoTo exponent.toNat : Nat)
      (if negative then -magnitude else magnitude, twoTo (-exponent).toNat)
  | .double (.infinite negative) =>
      let magnitude : Int := twoTo 2048
      (if negative then -magnitude else magnitude, 1)
  | _ => (0, 1)

/-- The first number is less than the second. -/
def numberLess (left right : Value) : Bool :=
  let (a, b) := numberRatio left
  let (c, d) := numberRatio right
  a * d < c * b

/-- The least of some numbers. -/
def leastNumber (first : Value) (rest : List Value) : Value :=
  rest.foldl (fun least key => if numberLess key least then key else least) first

/-- A value is a moment and its offset is known as said. -/
def isMoment (hasOffset : Bool) : Value → Bool
  | .moment value => value.offset.isSome == hasOffset
  | _ => false

/-- The error for keys that name no field. -/
def unknownKeysError (first : Value) (rest : List Value) : DocumentError :=
  let keys := first :: rest
  if keys.all (fun key => (text? key).isSome) then
    .unknownKeys (sortedStrings (keys.filterMap text?))
  else if keys.all isNumber then
    .keyNotText (leastNumber first rest).typeName
  else
    match rest.find? (fun key => key.typeName != first.typeName) with
    | none =>
        if keys.any (isMoment true) && keys.any (isMoment false) then
          .momentsNotOrdered
        else .keyNotText first.typeName
    | some other => .keysNotOrdered other.typeName first.typeName

/-- Every key names a field. -/
def checkKeys (entries : Entries) : Except DocumentError Unit :=
  match (entries.map Prod.fst).filter (fun key => !isKnown key) with
  | [] => .ok ()
  | first :: rest => .error (unknownKeysError first rest)

/-! ## Fields -/

/-- A field that is text, or its default. -/
def textField
    (entries : Entries)
    (field default : String) : Except DocumentError String :=
  match Entries.find? entries field with
  | none => .ok default
  | some (.text value) => .ok value
  | some _ => .error (.notText field)

/-- Entries whose keys and values are text. -/
def textPairs? : Entries → Option (List (String × String))
  | [] => some []
  | (.text key, .text value) :: rest =>
      (textPairs? rest).map fun pairs => (key, value) :: pairs
  | _ => none

/-- A field that maps text to text, or its default.  The document itself does
not, since it maps the field to a mapping. -/
def pairsField
    (entries : Entries)
    (field : String)
    (build : String → String → α)
    (default : List α) : Except DocumentError (List α) :=
  match Entries.find? entries field with
  | none => .ok default
  | some (.mapping pairs) =>
      match textPairs? pairs with
      | none => .error (.notTextMapping field)
      | some pairs => .ok (pairs.map fun (key, value) => build key value)
  | some (.enclosing true) => .error (.notTextMapping field)
  | some _ => .error (.notMapping field)

/-- The output variable, whose name and type may be any values that have a
text. -/
def outputField
    (entries : Entries)
    (default : Variable) : Except DocumentError Variable :=
  match Entries.find? entries "output_variable" with
  | none => .ok default
  | some (.mapping pairs) =>
      match pairs.length, Entries.find? pairs "name",
          Entries.find? pairs "type" with
      | 2, some name, some type =>
          if name.hasText && type.hasText then
            .ok ⟨name.display, type.display⟩
          else .error .numberTooLong
      | _, _, _ => .error .badOutput
  | some _ => .error .badOutput

/-- Items that are all text. -/
def texts? : List Value → Option (List String)
  | [] => some []
  | .text value :: rest => (texts? rest).map (value :: ·)
  | _ => none

/-- The identifiers that aliases may be resolved to. -/
def identifiersField
    (entries : Entries)
    (default : List String) : Except DocumentError (List String) :=
  match Entries.find? entries "canonical_identifiers" with
  | none => .ok default
  | some (.list items) =>
      match texts? items with
      | none => .error .badIdentifiers
      | some identifiers => .ok identifiers
  | some _ => .error .badIdentifiers

/-- The built-in dialect with the fields that a mapping overrides. -/
def ofEntries (entries : Entries) : Except DocumentError Dialect := do
  checkKeys entries
  let versionDirective ←
    textField entries "version_directive" builtin.versionDirective
  let precision ← textField entries "precision" builtin.precision
  let fragColor ← textField entries "frag_color" builtin.fragColor
  let fragCoord ← textField entries "frag_coord" builtin.fragCoord
  let fragCoordBuiltin ←
    textField entries "frag_coord_builtin" builtin.fragCoordBuiltin
  let uniforms ← pairsField entries "uniforms" Variable.mk builtin.uniforms
  let macros ← pairsField entries "macros" Macro.mk builtin.macros
  let output ← outputField entries builtin.output
  let canonicalIdentifiers ←
    identifiersField entries builtin.canonicalIdentifiers
  pure
    { versionDirective, precision, uniforms, output, macros,
      canonicalIdentifiers, fragColor, fragCoord, fragCoordBuiltin }

end Dialect
end ShaderLift
