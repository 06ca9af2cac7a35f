import ShaderLift.Chat.Call
import ShaderLift.Chat.Reply
import ShaderLift.Chat.Transcript

/-!
# Chat sessions

A session holds a transcript and the files around it.  It saves the
transcript, loads another one, or asks a model for the next revision of a
shader.  A step that fails leaves the transcript as it was.
-/

namespace ShaderLift
namespace Chat

/-! ## Revisions -/

/-- What is asked for: a revision of a shader by an instruction. -/
structure Inquiry where
  model : String
  shader : String
  instruction : String
deriving Repr, DecidableEq

/-- What a request led to, and the requests that were sent for it. -/
structure Exchange where
  requests : List Request
  result : Except CallError Turn
deriving Repr

/-- The conversation that an inquiry is sent with. -/
def Inquiry.conversation
    (inquiry : Inquiry)
    (turns : Transcript) : List Message :=
  prompt turns (userMessage inquiry.instruction inquiry.shader)

/-- The turn that records an inquiry and the shader it led to. -/
def Inquiry.turn (inquiry : Inquiry) (now : Moment) (shader : String) : Turn where
  createdAt := now.text "T"
  userInput := inquiry.instruction
  userMessage := userMessage inquiry.instruction inquiry.shader
  assistantMessage := assistantMessage shader
  shaderSource := shader

/-- Ask a vendor and read the shader in the reply. -/
def Vendor.revise
    (vendor : Vendor)
    (inquiry : Inquiry)
    (turns : Transcript)
    (now : Moment)
    (channel : Channel) : Interaction Request CallError Turn := do
  let reply ←
    vendor.call inquiry.model (inquiry.conversation turns) channel
  match shaderOf reply with
  | none => throw (.chat .noShader)
  | some shader =>
      Interaction.note .info
        s!"Received shader revision from {inquiry.model} ({shader.length} chars)"
      pure (inquiry.turn now shader)

/-- Ask the vendor that serves the model. -/
def ask
    (clients : List Vendor)
    (inquiry : Inquiry)
    (turns : Transcript)
    (now : Moment)
    (channel : Channel) : Interaction Request CallError Turn := do
  match provider inquiry.model clients with
  | .error error => throw (.chat error)
  | .ok vendor => vendor.revise inquiry turns now channel

/-- Ask for the next revision of a shader, and keep what was sent for it. -/
def fetch
    (clients : List Vendor)
    (inquiry : Inquiry)
    (turns : Transcript)
    (now : Moment)
    (channel : Channel) : Logged Exchange :=
  let asked := (ask clients inquiry turns now channel).run
  ⟨⟨asked.deeds, asked.value⟩, asked.log⟩

/-! ## Steps -/

/-- A transcript and the files around it. -/
structure Session where
  turns : Transcript
  files : FileStore
deriving Repr, DecidableEq

/-- What a session may do next. -/
inductive Step
  | save (path : String)
  | load (path : String) (reader : Yaml.Reader)
  | fetch (clients : List Vendor) (inquiry : Inquiry) (now : Moment)
      (channel : Channel)

/-- Why a step fails. -/
inductive StepError
  | save (error : FileError)
  | load (error : TranscriptError)
  | fetch (error : CallError)
deriving Repr, DecidableEq

/-- What a step did: the requests it sent, its error if it failed, and the
session after it. -/
structure StepReport where
  requests : List Request := []
  error : Option StepError := none
  session : Session
deriving Repr, DecidableEq

namespace Session

/-- Perform a step. -/
def step (session : Session) : Step → Logged StepReport
  | .save path =>
      match Transcript.save session.files path session.turns with
      | .error problem =>
          pure { error := some (.save problem), session := session }
      | .ok files => pure { session := { session with files := files } }
  | .load path reader =>
      match Transcript.load session.files path reader with
      | .error problem =>
          pure { error := some (.load problem), session := session }
      | .ok turns => pure { session := { session with turns := turns } }
  | .fetch clients inquiry now channel => do
      let exchange ← Chat.fetch clients inquiry session.turns now channel
      match exchange.result with
      | .error problem =>
          pure
            { requests := exchange.requests, error := some (.fetch problem),
              session := session }
      | .ok turn =>
          pure
            { requests := exchange.requests,
              session := { session with turns := session.turns ++ [turn] } }

end Session
end Chat
end ShaderLift
