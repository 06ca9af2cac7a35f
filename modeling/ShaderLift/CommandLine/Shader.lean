import ShaderLift.CommandLine.Report
import ShaderLift.Conversion.Convert
import ShaderLift.Dialect.File

/-!
# Shaders on the command line

What the commands share: the dialect that an option names, the shader in a
file, its conversion, and the place where code goes.
-/

namespace ShaderLift
namespace CommandLine

/-- An error of a dialect file that is logged.  What is no text, has no value,
cannot be put in order or cannot be written is not expected. -/
def isExpected : Dialect.LoadError → Bool
  | .unreadable (.file _) => true
  | .unreadable (.text _) => false
  | .malformed _ => true
  | .fault _ => false
  | .notMapping _ => true
  | .document (.keyNotText _) => false
  | .document (.keysNotOrdered ..) => false
  | .document .momentsNotOrdered => false
  | .document .numberTooLong => false
  | .document _ => true

/-- The dialect in a file, or the built-in one if no file is named. -/
def dialectIn
    (files : FileStore)
    (path : Option String)
    (reader : Yaml.Reader) : Attempt Stop Dialect.Loaded :=
  match path with
  | none => pure ⟨.builtin, []⟩
  | some path => do
      let loaded ← Attempt.ofLogged (Dialect.load files path reader).run
      match loaded with
      | .ok loaded => pure loaded
      | .error error =>
          if isExpected error then
            Attempt.note .error s!"Invalid dialect file: {error.message}"
            throw .logged
          else throw (.failed (.dialect error))

/-- The text of a shader's file, if it can be read. -/
def readShader
    (files : FileStore)
    (shader : String) : Logged (Option String) :=
  match files.readText (Path.plain shader) with
  | .ok text => pure (some (String.ofList text))
  | .error error => do
      Logged.write .error s!"Failed to read shader file: {error.message}"
      pure none

/-- The converted code of a shader's file, if it can be read and
converted. -/
def convertFile
    (files : FileStore)
    (shader : String)
    (dialect : Dialect) : Logged (Option String) := do
  match ← readShader files shader with
  | none => pure none
  | some source =>
      let result ← Conversion.convert (some source) dialect (some shader)
      match result.unwrap with
      | .ok code => pure (some code)
      | .error _ =>
          Logged.write .error s!"Failed to convert shader: {result.message}"
          pure none

/-- Write code and a line end to a file. -/
def writeCode
    (files : FileStore)
    (code output : String)
    (surrogates : Text.Surrogates) :
    Attempt FileStore.WriteFailure FileStore := do
  let written ←
    Attempt.ofExcept (files.writeMarked output (code ++ "\n") surrogates)
  Attempt.note .info s!"Shader code written to {output}"
  pure written

/-- Hand code out: to a file if one is named, else to the standard output. -/
def deliver
    (files : FileStore)
    (code : String)
    (output : Option String)
    (surrogates : Text.Surrogates := []) : Logged Report :=
  match output with
  | none =>
      match Text.encodeError? surrogates 0 (code ++ "\n").toList with
      | some error => pure (Report.failed (.text error) files)
      | none => pure { printed := code ++ "\n", files := files }
  | some path => do
      match ← (writeCode files code path surrogates).run with
      | .ok written => pure { files := written }
      | .error failure =>
          pure (Report.failed (.ofWriteError failure.error) failure.files)

end CommandLine
end ShaderLift
