import ShaderLift.Chat.Turn
import ShaderLift.Files.Store
import ShaderLift.Yaml.Read
import ShaderLift.Yaml.Write

/-!
# Transcripts

A transcript is a list of turns, oldest first.  Its file is a document that
holds a list of turns; a missing file and an empty document are the empty
transcript.  A character that stands for half of a surrogate pair in a document
is taken into a turn like any other.
-/

namespace ShaderLift
namespace Chat

open Document

/-- Turns, oldest first. -/
abbrev Transcript :=
  List Turn

/-- Why a file is no transcript. -/
inductive TranscriptError
  /-- The file cannot be read. -/
  | unreadable (error : FileStore.ReadError)
  /-- The file breaks the rules of its format. -/
  | malformed (path : String)
  /-- A scalar of the file has no value. -/
  | fault (cause : Yaml.Fault)
  /-- The file holds something else than a list. -/
  | notList (path : String)
  /-- An item of the list is no turn. -/
  | turn (error : TurnError)
deriving Repr, DecidableEq

/-- The wording of an error. -/
def TranscriptError.message : TranscriptError → String
  | .unreadable error => error.message
  | .malformed path => s!"Invalid YAML in {path}"
  | .fault cause => cause.message
  | .notList path => s!"History file {path} must contain a list of turns"
  | .turn error => error.message

/-- The error for a file that cannot be read. -/
def TranscriptError.ofReadError (path : String) :
    Yaml.ReadError → TranscriptError
  | .text error => .unreadable (.text error)
  | .fault .malformed => .malformed path
  | .fault cause => .fault cause

namespace Transcript

/-- The turns that the items of a list describe, counted from an index. -/
def ofItems (index : Int) : List Value → Except TurnError Transcript
  | [] => .ok []
  | item :: rest =>
      match Turn.ofValue index item with
      | .error error => .error error
      | .ok turn =>
          match ofItems (index + 1) rest with
          | .error error => .error error
          | .ok turns => .ok (turn :: turns)

/-- The transcript that the value of a document describes. -/
def ofValue
    (path : String)
    (value : Value) : Except TranscriptError Transcript :=
  match value with
  | .null => .ok []
  | .list items =>
      match ofItems 0 items with
      | .ok turns => .ok turns
      | .error error => .error (.turn error)
  | _ => .error (.notList path)

/-- The transcript in the bytes of a file. -/
def ofBytes
    (path : String)
    (bytes : List UInt8)
    (reader : Yaml.Reader) : Except TranscriptError Transcript := do
  let reading ← (reader bytes).mapError (.ofReadError path)
  ofValue path reading.value

/-- Load a transcript from a file. -/
def load
    (store : FileStore)
    (path : String)
    (reader : Yaml.Reader := Yaml.parse) : Except TranscriptError Transcript :=
  let place := Path.plain path
  if !store.contains place then .ok []
  else
    match store.readBytes place with
    | .error error => .error (.unreadable (.file error))
    | .ok bytes => ofBytes place bytes reader

/-- The text of a transcript's file. -/
def text (turns : Transcript) : List Char :=
  Yaml.writeRecords (turns.map Turn.entries)

/-- Save a transcript to a file. -/
def save
    (store : FileStore)
    (path : String)
    (turns : Transcript) : Except FileError FileStore :=
  store.writeText path (String.ofList (text turns))

end Transcript
end Chat
end ShaderLift
