/-!
# Messages

A conversation with a chat model is a list of messages, each written by the
system, the user or the assistant.
-/

namespace ShaderLift
namespace Chat

/-- Who wrote a message. -/
inductive Role
  | system
  | user
  | assistant
deriving Repr, DecidableEq

/-- One message of a conversation. -/
structure Message where
  role : Role
  content : String
deriving Repr, DecidableEq

namespace Message

/-- The message sets the rules of the conversation. -/
def isSystem (message : Message) : Bool :=
  message.role == .system

end Message
end Chat
end ShaderLift
