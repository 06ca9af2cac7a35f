import ShaderLift.Shader.Template

/-!
# Outcomes of a conversion

Why a conversion fails, the failure that names the file it came from, and the
result that a caller gets in either case.
-/

namespace ShaderLift
namespace Conversion

/-- The kinds of failure. -/
inductive Kind
  | emptyInput
  | missingEntryPoint
  | internalFault
deriving Repr, DecidableEq

/-- Why a body cannot be converted. -/
inductive Fault
  | emptyInput
  | missingEntryPoint
  /-- A name of the dialect is no readable template. -/
  | badTemplate (error : Shader.Template.Error)
deriving Repr, DecidableEq

/-- The kind of a fault. -/
def Fault.kind : Fault → Kind
  | .emptyInput => .emptyInput
  | .missingEntryPoint => .missingEntryPoint
  | .badTemplate _ => .internalFault

/-- The wording of a fault. -/
def Fault.message : Fault → String
  | .emptyInput => "Input shader code is empty"
  | .missingEntryPoint =>
      "Input shader does not contain a valid mainImage function"
  | .badTemplate error => error.message

/-- A failure, with the file that the source came from if it is known. -/
structure Failure where
  message : String
  kind : Kind := .internalFault
  sourceName : Option String := none
deriving Repr, DecidableEq

namespace Failure

/-- The part of a path behind its last slash. -/
def fileName (path : String) : String :=
  String.ofList ((path.toList.reverse.takeWhile (· != '/')).reverse)

/-- The message and the name of the file, if there is one. -/
def text (failure : Failure) : String :=
  match failure.sourceName with
  | none => failure.message
  | some name =>
      if name.isEmpty then failure.message
      else s!"{failure.message} in {fileName name}"

/-- The same failure for another file. -/
def withSource (failure : Failure) (name : Option String) : Failure :=
  { failure with sourceName := name }

/-- The failure that a fault of the source is. -/
def ofFault (fault : Fault) (name : Option String) : Failure :=
  ⟨fault.message, fault.kind, name⟩

end Failure

/-- What a caller gets: the code, or the kind of failure and a message. -/
structure Result where
  code : Option String := none
  error : Option Kind := none
  message : String := ""
deriving Repr, DecidableEq

namespace Result

/-- A result with code. -/
def success (code : String) : Result :=
  { code := some code }

/-- A result without code. -/
def failure (kind : Kind) (message : String) : Result :=
  { error := some kind, message := message }

/-- No failure is reported. -/
def isOk (result : Result) : Bool :=
  result.error.isNone

/-- The code, or the failure if there is one or the code is missing. -/
def unwrap (result : Result) : Except Failure String :=
  match result.error, result.code with
  | none, some code => .ok code
  | error, _ =>
      .error { message := result.message, kind := error.getD .internalFault }

end Result
end Conversion
end ShaderLift
