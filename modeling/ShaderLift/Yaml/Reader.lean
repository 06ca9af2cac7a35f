import ShaderLift.Document.Value
import ShaderLift.Text.Utf8
import ShaderLift.Yaml.Fault

/-!
# Readers of documents

A reader makes a value of the bytes of a file.  Whatever deals with documents
takes the reader from outside, so that what is known about it does not rest on
the rules of one reader.
-/

namespace ShaderLift
namespace Yaml

open Document

/-- Why bytes hold no document. -/
inductive ReadError
  /-- The bytes are no text. -/
  | text (error : Text.DecodeError)
  /-- The text has no value. -/
  | fault (cause : Fault)
deriving Repr, DecidableEq

/-- What was read: a value, and the characters in its texts that stand for
halves of surrogate pairs. -/
structure Reading where
  value : Value
  surrogates : Text.Surrogates := []
deriving Repr

/-- How documents are read. -/
abbrev Reader :=
  List UInt8 → Except ReadError Reading

end Yaml
end ShaderLift
