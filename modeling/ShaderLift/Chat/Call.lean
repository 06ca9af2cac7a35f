import ShaderLift.Chat.Message
import ShaderLift.Chat.Model
import ShaderLift.Trace

/-!
# Calls to a vendor

A request carries a conversation in the form its vendor expects: one vendor
takes all messages alike, the other takes the system's rules apart.  Whatever
comes back is either the text of a reply or an error whose cause tells whether
the same request may succeed later.
-/

namespace ShaderLift
namespace Chat

/-! ## Requests -/

/-- What is sent to a vendor. -/
inductive Request
  | openAI (model : String) (messages : List Message)
  | anthropic (model : String) (maxTokens : Nat) (system : String)
      (messages : List Message)
deriving Repr, DecidableEq

/-- The longest reply that is asked for where a limit must be named. -/
def replyTokens : Nat :=
  1024

/-- The system's rules in a conversation. -/
def systemText (messages : List Message) : String :=
  String.intercalate "\n\n"
    ((messages.filter Message.isSystem).map Message.content)

/-- The messages that are not the system's. -/
def dialogue (messages : List Message) : List Message :=
  messages.filter fun message => !message.isSystem

/-- The request that sends a conversation to a vendor. -/
def Vendor.request
    (vendor : Vendor)
    (model : String)
    (messages : List Message) : Request :=
  match vendor with
  | .openAI => .openAI model messages
  | .anthropic =>
      .anthropic model replyTokens (systemText messages) (dialogue messages)

/-- The number of messages that a request lists. -/
def Request.messageCount : Request → Nat
  | .openAI _ messages => messages.length
  | .anthropic _ _ _ messages => messages.length

/-! ## Outcomes -/

/-- One part of a reply. -/
structure Block where
  kind : String
  text : String
deriving Repr, DecidableEq

/-- What comes back for a request. -/
inductive Outcome
  /-- A list of alternatives, each with a text or none. -/
  | choices (contents : List (Option String))
  /-- A list of parts. -/
  | blocks (contents : List Block)
  /-- An error with the status of the transfer. -/
  | status (code : Int) (message : String)
  /-- The vendor cannot be reached. -/
  | disconnected (message : String)
  /-- Any other error that the vendor's library knows. -/
  | refused (message : String)
  /-- A failure that is no error of the vendor's library. -/
  | crashed (message : String)
deriving Repr, DecidableEq

/-- How requests are answered. -/
abbrev Channel :=
  Request → Outcome

/-- Send a request and take what comes back. -/
def Channel.send
    (channel : Channel)
    (request : Request) : Interaction Request ε Outcome := do
  Interaction.perform request
  pure (channel request)

/-! ## Errors -/

/-- What a status tells. -/
inductive StatusCause
  | invalidKey
  | region
  | rateLimit
  | serverFault
  | other
deriving Repr, DecidableEq

/-- What the code of a status tells, if there is one. -/
def StatusCause.ofCode (code : Option Int) : StatusCause :=
  if code = some 401 then .invalidKey
  else if code = some 403 then .region
  else if code = some 429 then .rateLimit
  else if code = some 500 || code = some 503 || code = some 529 then
    .serverFault
  else .other

/-- Why there is no revision. -/
inductive ChatError
  /-- No vendor that can be reached serves the model. -/
  | noProvider
  /-- No vendor serves the model. -/
  | unknownModel (model : String)
  /-- The key for the vendor is missing. -/
  | keyNotSet (vendor : Vendor)
  /-- The vendor answered with a status. -/
  | status (cause : StatusCause) (detail : String)
  /-- The vendor cannot be reached. -/
  | unreachable (vendor : Vendor) (detail : String)
  /-- The vendor's library reported any other error. -/
  | unknown (detail : String)
  /-- The reply of the vendor has no text. -/
  | noText (vendor : Vendor)
  /-- The reply has no block of shader code. -/
  | noShader
deriving Repr, DecidableEq

namespace ChatError

/-- The same request may succeed later. -/
def isRecoverable : ChatError → Bool
  | .status .rateLimit _ => true
  | .status .serverFault _ => true
  | .unreachable _ _ => true
  | .noShader => true
  | _ => false

/-- The wording of an error. -/
def message : ChatError → String
  | .noProvider => "No LLM provider available for the selected model"
  | .unknownModel model => s!"Unknown model: {model}"
  | .keyNotSet vendor => s!"{vendor.keyName} is not set"
  | .status .invalidKey _ => "API key is invalid"
  | .status .region _ => "Region not supported"
  | .status .rateLimit _ => "Rate limit exceeded, try again later"
  | .status .serverFault _ => "Internal server error, try again later"
  | .status .other detail => s!"API error: {detail}"
  | .unreachable vendor detail =>
      s!"Could not reach {vendor.name}, try again later: {detail}"
  | .unknown detail => s!"Unknown Error: {detail}"
  | .noText .openAI => "LLMResponseFailure"
  | .noText .anthropic => "Unexpected response format from Claude"
  | .noShader => "ParseFailure"

/-- The error that a status stands for. -/
def ofStatus (code : Option Int) (detail : String) : ChatError :=
  .status (.ofCode code) detail

end ChatError

/-- How a call fails: with an error, or with a failure that is none. -/
inductive CallError
  | chat (error : ChatError)
  | crash (detail : String)
deriving Repr, DecidableEq

/-- The wording of a failure. -/
def CallError.message : CallError → String
  | .chat error => error.message
  | .crash detail => detail

/-! ## Replies -/

/-- The text of a reply.  The first alternative must have a text that is not
empty; the first part must be a text. -/
def Vendor.replyText
    (vendor : Vendor)
    (outcome : Outcome) : Except CallError String :=
  match vendor, outcome with
  | _, .status code detail => .error (.chat (.ofStatus (some code) detail))
  | _, .disconnected detail => .error (.chat (.unreachable vendor detail))
  | _, .refused detail => .error (.chat (.unknown detail))
  | _, .crashed detail => .error (.crash detail)
  | .openAI, .choices (some text :: _) =>
      if text = "" then .error (.chat (.noText vendor)) else .ok text
  | .anthropic, .blocks (block :: _) =>
      if block.kind = "text" then .ok block.text
      else .error (.chat (.noText vendor))
  | _, _ => .error (.chat (.noText vendor))

/-- Send a conversation and read the reply. -/
def Vendor.call
    (vendor : Vendor)
    (model : String)
    (messages : List Message)
    (channel : Channel) : Interaction Request CallError String := do
  let request := vendor.request model messages
  Interaction.note .debug
    s!"Calling {vendor.family} {model} with {request.messageCount} messages"
  let outcome ← channel.send request
  Interaction.ofExcept (vendor.replyText outcome)

/-! ## Clients -/

/-- The vendor that serves a model among those that can be reached. -/
def provider
    (model : String)
    (clients : List Vendor) : Except ChatError Vendor :=
  match vendorOf? model with
  | some vendor =>
      if clients.contains vendor then .ok vendor else .error .noProvider
  | none => .error .noProvider

/-- Why the client of a vendor cannot be made, where that is so. -/
abbrev ClientFaults :=
  Vendor → Option String

/-- The vendor that serves a model, if its key is set and its client can be
made.  A client that cannot be made is no error of the chat. -/
def client
    (environment : Environment)
    (model : String)
    (faults : ClientFaults := fun _ => none) : Except CallError Vendor :=
  match vendorOf? model with
  | none => .error (.chat (.unknownModel model))
  | some vendor =>
      if (environment.find? vendor.keyName).isNone then
        .error (.chat (.keyNotSet vendor))
      else
        match faults vendor with
        | some detail => .error (.crash detail)
        | none => .ok vendor

end Chat
end ShaderLift
