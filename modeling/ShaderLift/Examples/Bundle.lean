import ShaderLift.Conversion.Convert
import ShaderLift.Examples.NaturalKey
import ShaderLift.Files.Store

/-!
# Example bundles

An example is a pair of files in one directory: a description and a shader,
named by one stem.  A bundle converts every shader and writes the examples that
succeed, in the natural order of their stems, to one report.  An example that
is incomplete, unreadable or not convertible is left out and counted.
-/

namespace ShaderLift
namespace Examples

open Text

/-! ## Names -/

/-- How the names of descriptions end. -/
def descriptionEnding : String :=
  ".txt"

/-- How the names of shaders end. -/
def shaderEnding : String :=
  ".glsl"

/-- The file belongs to an example. -/
def isExampleFile (name : String) : Bool :=
  endsWith name descriptionEnding || endsWith name shaderEnding

/-- The part of a file name before its first dot. -/
def stemOf (name : String) : String :=
  String.ofList (name.toList.takeWhile (· != '.'))

/-- The stems of the examples among some files, each once and in natural
order. -/
def stems (names : List String) : Except IntegerError (List String) :=
  naturalSort ((names.filter isExampleFile).map stemOf).eraseDups

/-- The label of an example: what stands between the first two underscores of
its stem, or the whole stem if it has none. -/
def labelOf (stem : String) : String :=
  match fields '_' stem.toList with
  | _ :: label :: _ => String.ofList label
  | _ => stem

/-! ## Reports -/

/-- The block of a report that shows one example. -/
def block (label description code : String) : String :=
  s!"Example {label}\n----\nDescription: {description}\n\nCode:\n{code}\n\n"

/-- Where a report is written unless another place is named. -/
def defaultReport : String :=
  "shader_examples.txt"

/-- The trimmed texts of an example's two files. -/
def readExample
    (store : FileStore)
    (directory stem : String) : Except FileStore.ReadError (String × String) := do
  let description ←
    store.readText (Path.child directory (stem ++ descriptionEnding))
  let code ← store.readText (Path.child directory (stem ++ shaderEnding))
  pure (String.ofList (trim description), String.ofList (trim code))

/-- The block of an example, if it is complete, readable and convertible. -/
def blockOf
    (store : FileStore)
    (directory : String)
    (names : List String)
    (dialect : Dialect)
    (stem : String) : Logged (Option String) := do
  if !names.contains (stem ++ descriptionEnding) then
    Logged.write .warning
      s!"Skipping incomplete example {stem}: missing description file"
    return none
  if !names.contains (stem ++ shaderEnding) then
    Logged.write .warning
      s!"Skipping incomplete example {stem}: missing code file"
    return none
  match readExample store directory stem with
  | .error error =>
      Logged.write .error s!"Error processing example {stem}: {error.message}"
      return none
  | .ok (description, source) =>
      let result ←
        Conversion.convert (some source) dialect (some (stem ++ shaderEnding))
      match result.unwrap with
      | .error _ =>
          Logged.write .error
            s!"Failed to convert example {stem}: {result.message}"
          return none
      | .ok code =>
          Logged.write .info s!"Successfully processed example {stem}"
          return some (block (labelOf stem) description code)

/-- The blocks of several examples in order. -/
def blocksOf
    (store : FileStore)
    (directory : String)
    (names : List String)
    (dialect : Dialect) : List String → Logged (List (Option String))
  | [] => pure []
  | stem :: rest => do
      let first ← blockOf store directory names dialect stem
      let others ← blocksOf store directory names dialect rest
      pure (first :: others)

/-! ## Generation -/

/-- What a run did. -/
structure Report where
  successCount : Nat
  failureCount : Nat
  output : String
deriving Repr, DecidableEq

/-- Why a run stops. -/
inductive BundleError
  /-- There is no directory to read. -/
  | noDirectory (path : String)
  /-- A stem has no key. -/
  | badName (error : IntegerError)
  /-- The report cannot be written. -/
  | unwritable (error : FileError)
  /-- The report has no bytes; its file is emptied. -/
  | unencodable (error : Text.EncodeError) (files : FileStore)
deriving Repr, DecidableEq

/-- The wording of an error. -/
def BundleError.message : BundleError → String
  | .noDirectory path => s!"Examples directory not found: {path}"
  | .badName error => error.message
  | .unwritable error => error.message
  | .unencodable error _ => error.message

/-- The error of a report that is not written. -/
def BundleError.ofWriteFailure (failure : FileStore.WriteFailure) : BundleError :=
  match failure.error with
  | .file error => .unwritable error
  | .text error => .unencodable error failure.files

/-- The place of a report: the one that is named, or the default in the
working directory. -/
def reportPath (store : FileStore) (output : Option String) : String :=
  match output with
  | none | some "" => Path.child store.root defaultReport
  | some path => Path.plain path

/-- Bundle the examples of a directory.  The result is the report and the
files after it is written. -/
def generate
    (store : FileStore)
    (directory : String)
    (output : Option String)
    (dialect : Dialect)
    (surrogates : Text.Surrogates := []) :
    Attempt BundleError (Report × FileStore) := do
  let source := Path.plain directory
  let target := reportPath store output
  if !store.isDirectory source then throw (.noDirectory source)
  Attempt.note .info "Generating shader examples file..."
  Attempt.note .info s!"Reading examples from: {source}"
  let names := store.fileNames source
  let found ←
    match stems names with
    | .ok found => pure found
    | .error error => throw (.badName error)
  Attempt.note .info s!"Found {found.length} potential examples"
  let blocks ← Attempt.ofLogged (blocksOf store source names dialect found)
  let written := blocks.filterMap id
  let files ←
    match store.writeMarked target (String.join written) surrogates with
    | .ok files => pure files
    | .error failure => throw (.ofWriteFailure failure)
  let failureCount := blocks.length - written.length
  Attempt.note .info "Examples generation summary:"
  Attempt.note .info s!"Successfully processed: {written.length} examples"
  if 0 < failureCount then
    Attempt.note .warning s!"Failed to process: {failureCount} examples"
  Attempt.note .info s!"Examples file generated at: {target}"
  pure (⟨written.length, failureCount, target⟩, files)

end Examples
end ShaderLift
