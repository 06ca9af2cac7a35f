import ShaderLift.Chat.Session
import ShaderLift.CommandLine.Command
import ShaderLift.CommandLine.Watch

/-!
# Running a command line

A run takes a command line and its surroundings, and gives a report and a log.
Nothing but the report changes: whoever runs the program writes the files and
prints the text that the report holds.
-/

namespace ShaderLift
namespace CommandLine

/-- What a run can see of the world. -/
structure Surroundings where
  environment : Chat.Environment := []
  files : FileStore
  now : Moment
  channel : Chat.Channel
  /-- Why clients cannot be made, where that is so. -/
  clientFaults : Chat.ClientFaults := fun _ => none
  /-- How documents are read. -/
  reader : Yaml.Reader := Yaml.parse
  /-- The observer that a watch is given. -/
  observer : Observer := {}

/-- Convert a shader. -/
def convert
    (files : FileStore)
    (shader : String)
    (output dialect : Option String)
    (reader : Yaml.Reader) : Logged Report := do
  match ← (dialectIn files dialect reader).run with
  | .error stop => pure (Report.stopped stop files)
  | .ok loaded =>
      match ← convertFile files shader loaded.dialect with
      | none => pure (Report.stopped .logged files)
      | some code => deliver files code output loaded.surrogates

/-- Bundle the examples of a directory. -/
def bundle
    (files : FileStore)
    (directory output : String)
    (dialect : Option String)
    (reader : Yaml.Reader) : Logged Report := do
  match ← (dialectIn files dialect reader).run with
  | .error stop => pure (Report.stopped stop files)
  | .ok loaded =>
      let generated ←
        (Examples.generate files directory (some output) loaded.dialect
          loaded.surrogates).run
      match generated with
      | .error (.badName error) => pure (Report.failed (.name error) files)
      | .error (.unencodable error emptied) =>
          pure (Report.failed (.text error) emptied)
      | .error error =>
          Logged.write .error
            s!"Failed to generate examples file: {error.message}"
          pure (Report.stopped .logged files)
      | .ok (report, files) =>
          let printed :=
            s!"{report.successCount} example(s) written to {report.output}, " ++
              s!"{report.failureCount} skipped\n"
          pure { printed := printed, files := files }

/-! ## Chat -/

/-- What the chat command needs before it asks: the shader, the transcript so
far and a vendor. -/
structure Preparation where
  inquiry : Chat.Inquiry
  turns : Chat.Transcript
  vendor : Chat.Vendor
deriving Repr, DecidableEq

/-- The shader that the chat command sends. -/
def chatShader (files : FileStore) (order : ChatOrder) : Attempt Stop String := do
  let shader ← Attempt.ofLogged
    (if order.convertsFirst then convertFile files order.shader .builtin
      else readShader files order.shader)
  match shader with
  | none => throw .logged
  | some text => pure text

/-- The transcript that the chat command continues. -/
def chatHistory
    (files : FileStore)
    (order : ChatOrder)
    (reader : Yaml.Reader) : Attempt Stop Chat.Transcript :=
  match order.history with
  | none => pure []
  | some path =>
      match Chat.Transcript.load files path reader with
      | .ok turns => pure turns
      | .error (.fault cause) => throw (.failed (.transcript cause))
      | .error error => do
          Attempt.note .error s!"Failed to read chat history: {error.message}"
          throw .logged

/-- Log an error of the chat.  One that may pass is a warning. -/
def logChatError (error : Chat.ChatError) : Logged Unit :=
  if error.isRecoverable then
    Logged.write .warning
      s!"{error.message} (temporary failure, run the command again)"
  else Logged.write .error error.message

/-- Everything that comes before the request. -/
def prepare
    (surroundings : Surroundings)
    (order : ChatOrder) : Attempt Stop Preparation := do
  if !Chat.availableModels.contains order.model then
    Attempt.note .error
      (s!"Unknown model: {order.model}. Choose one of " ++
        String.intercalate ", " Chat.availableModels)
    throw .logged
  let shader ← chatShader surroundings.files order
  let turns ← chatHistory surroundings.files order surroundings.reader
  match Chat.client surroundings.environment order.model
      surroundings.clientFaults with
  | .error (.crash detail) => throw (.failed (.crash detail))
  | .error (.chat error) =>
      Attempt.ofLogged (logChatError error)
      throw .logged
  | .ok vendor => pure ⟨⟨order.model, shader, order.instruction⟩, turns, vendor⟩

/-- Save the transcript if a file for it is named. -/
def saveHistory
    (files : FileStore)
    (history : Option String)
    (turns : Chat.Transcript) : Attempt FileError FileStore :=
  match history with
  | none => pure files
  | some path => do
      let saved ← Attempt.ofExcept (Chat.Transcript.save files path turns)
      Attempt.note .info
        s!"Transcript saved to {path} ({turns.length} turns)"
      pure saved

/-- Keep the transcript and hand out the shader. -/
def handOut
    (files : FileStore)
    (order : ChatOrder)
    (turns : Chat.Transcript)
    (shader : String) : Logged Report := do
  match ← (saveHistory files order.history turns).run with
  | .error error => pure (Report.failed (.file error) files)
  | .ok saved => deliver saved shader order.output

/-- Ask a model for a revision of a shader. -/
def chat (surroundings : Surroundings) (order : ChatOrder) : Logged Report := do
  let files := surroundings.files
  match ← (prepare surroundings order).run with
  | .error stop => pure (Report.stopped stop files)
  | .ok ⟨inquiry, turns, vendor⟩ =>
      let exchange ←
        Chat.fetch [vendor] inquiry turns surroundings.now surroundings.channel
      let report ←
        match exchange.result with
        | .error (.crash detail) => pure (Report.failed (.crash detail) files)
        | .error (.chat error) => do
            logChatError error
            pure (Report.stopped .logged files)
        | .ok turn => handOut files order (turns ++ [turn]) turn.shaderSource
      pure { report with requests := some exchange.requests }

/-! ## Command lines -/

/-- Run a command. -/
def runCommand (surroundings : Surroundings) : Command → Logged Report
  | .convert shader output dialect =>
      convert surroundings.files shader output dialect surroundings.reader
  | .watch shader output dialect =>
      watch surroundings.files shader output dialect surroundings.observer
        surroundings.reader
  | .examples directory output dialect =>
      bundle surroundings.files directory output dialect surroundings.reader
  | .chat order => chat surroundings order

/-- The entries of a log that are shown: all of them, or those that are more
than remarks for developers. -/
def shown (isVerbose : Bool) (log : List Entry) : List Entry :=
  log.filter fun entry => isVerbose || entry.level != .debug

/-- Run a command line. -/
def run (surroundings : Surroundings) (line : List String) : Logged Report :=
  match Invocation.read surroundings.environment line with
  | .error error =>
      pure { ending := .misused error, files := surroundings.files }
  | .ok .help => pure { files := surroundings.files }
  | .ok (.run isVerbose command) =>
      let result := runCommand surroundings command
      ⟨result.value, shown isVerbose result.log⟩

end CommandLine
end ShaderLift
