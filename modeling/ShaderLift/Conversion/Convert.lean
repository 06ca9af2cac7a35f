import ShaderLift.Conversion.Result
import ShaderLift.Dialect.Header
import ShaderLift.Log
import ShaderLift.Shader.Alias
import ShaderLift.Shader.Define
import ShaderLift.Shader.EntryPoint
import ShaderLift.Shader.Layout
import ShaderLift.Shader.Rename

/-!
# Conversion

A body is converted in order: define directives are taken out, the entry point
is replaced, its parameters are renamed, aliases are resolved, and the code is
laid out.  A whole conversion puts the header in front and turns every fault
into a result, so that it always returns.
-/

namespace ShaderLift
namespace Conversion

open Shader

/-- Replace the entry point that a dialect names. -/
def replaceEntryPoint
    (dialect : Dialect)
    (source : List Char) : Attempt Fault (List Char) := do
  match EntryPoint.replace? dialect.fragColor.toList dialect.fragCoord.toList
      source with
  | none => throw .missingEntryPoint
  | some replaced =>
      Attempt.note .debug "Rewrote mainImage signature to main()"
      pure replaced

/-- Rename the parameters of the entry point and resolve aliases. -/
def substituteIdentifiers
    (dialect : Dialect)
    (table : Define.Table)
    (source : List Char) : Attempt Template.Error (List Char) := do
  let renamed ← Attempt.ofExcept (renameOutput dialect source)
  let renamed ← Attempt.ofExcept (renameFragCoord dialect renamed)
  Attempt.ofLogged (substituteDefines dialect table renamed)

/-- Convert the body of a source that is not empty. -/
def convertText
    (dialect : Dialect)
    (source : List Char) : Attempt Fault (List Char) := do
  let (table, body) ← Attempt.ofLogged (Define.extract source)
  Attempt.note .debug s!"Extracted {table.length} define(s)"
  let body ← replaceEntryPoint dialect body
  let body ← (substituteIdentifiers dialect table body).mapError .badTemplate
  pure (Shader.format body)

/-- Convert the body of a source, which may be missing. -/
def convertBody
    (dialect : Dialect)
    (source : Option String) : Attempt Fault String := do
  match source with
  | none => throw .emptyInput
  | some text =>
      if text.isEmpty then throw .emptyInput
      else
        let body ← convertText dialect text.toList
        pure (String.ofList body)

/-- Report a fault as a result.  Faults of the source name the file, faults of
the dialect are internal. -/
def report (fault : Fault) (sourceName : Option String) : Logged Result := do
  match fault with
  | .badTemplate error =>
      Logged.write .error "Unexpected error while converting shader"
      pure (.failure .internalFault
        s!"Failed to convert shader: {error.message}")
  | fault =>
      let failure := Failure.ofFault fault sourceName
      Logged.write .debug s!"Conversion failed: {failure.text}"
      pure (.failure failure.kind failure.text)

/-- Convert a source into a standalone shader. -/
def convert (source : Option String) (dialect : Dialect := .builtin)
    (sourceName : Option String := none) : Logged Result := do
  match ← (convertBody dialect source).run with
  | .ok body => pure (.success (dialect.header ++ body))
  | .error fault => report fault sourceName

end Conversion
end ShaderLift
