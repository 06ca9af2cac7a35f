import ShaderLift.Dialect.Document
import ShaderLift.Files.Store
import ShaderLift.Log
import ShaderLift.Yaml.Read

/-!
# Dialect files

A dialect file is a document that holds a mapping, or nothing.  A dialect that
was loaded keeps the characters that stand for halves of surrogate pairs in its
texts.
-/

namespace ShaderLift
namespace Dialect

open Document

/-- Why a file is no dialect. -/
inductive LoadError
  /-- The file cannot be read. -/
  | unreadable (error : FileStore.ReadError)
  /-- The file breaks the rules of its format. -/
  | malformed (path : String)
  /-- A scalar of the file has no value. -/
  | fault (cause : Yaml.Fault)
  /-- The file holds something else than a mapping. -/
  | notMapping (path : String)
  /-- The mapping is no dialect. -/
  | document (error : DocumentError)
deriving Repr, DecidableEq

/-- The wording of an error. -/
def LoadError.message : LoadError → String
  | .unreadable error => error.message
  | .malformed path => s!"Invalid YAML in {path}"
  | .fault cause => cause.message
  | .notMapping path => s!"Dialect file {path} must contain a mapping"
  | .document error => error.message

/-- The error for a file that cannot be read. -/
def LoadError.ofReadError (path : String) : Yaml.ReadError → LoadError
  | .text error => .unreadable (.text error)
  | .fault .malformed => .malformed path
  | .fault cause => .fault cause

/-- A dialect as a file gives it. -/
structure Loaded where
  dialect : Dialect
  surrogates : Text.Surrogates := []
deriving Repr, DecidableEq

/-- The dialect that the value of a document describes. -/
def ofValue (path : String) (value : Value) : Except LoadError Dialect :=
  match value with
  | .null => (ofEntries []).mapError .document
  | .mapping entries => (ofEntries entries).mapError .document
  | _ => .error (.notMapping path)

/-- The dialect in the bytes of a file. -/
def ofBytes
    (path : String)
    (bytes : List UInt8)
    (reader : Yaml.Reader) : Except LoadError Loaded := do
  let reading ← (reader bytes).mapError (.ofReadError path)
  let dialect ← ofValue path reading.value
  pure ⟨dialect, reading.surrogates⟩

/-- Load a dialect from a file. -/
def load
    (store : FileStore)
    (path : String)
    (reader : Yaml.Reader := Yaml.parse) : Attempt LoadError Loaded := do
  let bytes ←
    match store.readBytes path with
    | .ok bytes => pure bytes
    | .error error => throw (.unreadable (.file error))
  let loaded ← Attempt.ofExcept (ofBytes path bytes reader)
  Attempt.note .info s!"Loaded dialect from {path}"
  pure loaded

end Dialect
end ShaderLift
