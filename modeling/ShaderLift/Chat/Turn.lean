import ShaderLift.Chat.Message
import ShaderLift.Document.Value

/-!
# Turns

A turn is a request to revise a shader together with the revision it led to.
In a document it is a mapping of five names to texts.
-/

namespace ShaderLift
namespace Chat

open Document

/-- A completed exchange. -/
structure Turn where
  /-- When the reply came. -/
  createdAt : String
  /-- The instruction as the user gave it. -/
  userInput : String
  /-- The message that was sent. -/
  userMessage : Message
  /-- The message that records the reply. -/
  assistantMessage : Message
  /-- The shader that the reply held. -/
  shaderSource : String
deriving Repr, DecidableEq

namespace Turn

/-- The two messages of a turn. -/
def messages (turn : Turn) : List Message :=
  [turn.userMessage, turn.assistantMessage]

/-- The user asked and the assistant replied. -/
def IsDialogue (turn : Turn) : Prop :=
  turn.userMessage.role = .user ∧ turn.assistantMessage.role = .assistant

instance (turn : Turn) : Decidable turn.IsDialogue :=
  inferInstanceAs (Decidable (_ ∧ _))

/-- The entries of a turn in a document, in order. -/
def entries (turn : Turn) : List (String × String) :=
  [("created_at", turn.createdAt), ("user_input", turn.userInput),
    ("user_message", turn.userMessage.content),
    ("assistant_message", turn.assistantMessage.content),
    ("shader_source", turn.shaderSource)]

/-- The names that a turn has in a document. -/
def keys : List String :=
  ["created_at", "user_input", "user_message", "assistant_message",
    "shader_source"]

@[simp] theorem map_fst_entries (turn : Turn) :
    turn.entries.map Prod.fst = keys :=
  rfl

end Turn

/-- Why a value is no turn; each cause names the place of the turn. -/
inductive TurnError
  | notMapping (index : Int)
  | missingKeys (index : Int) (names : List String)
  | notText (index : Int)
deriving Repr, DecidableEq

/-- The wording of an error. -/
def TurnError.message : TurnError → String
  | .notMapping index => s!"Turn {index} must be a mapping"
  | .missingKeys index names =>
      s!"Turn {index} is missing keys: " ++ String.intercalate ", " names
  | .notText index => s!"Turn {index} values must be strings"

namespace Turn

/-- The text of an entry. -/
def text? (entries : Entries) (name : String) : Option String :=
  match Entries.find? entries name with
  | some (.text text) => some text
  | _ => none

/-- The turn whose entries are all there and all texts.  A document tells what
was said; who said it is known. -/
def ofTexts? (entries : Entries) : Option Turn := do
  let createdAt ← text? entries "created_at"
  let userInput ← text? entries "user_input"
  let userMessage ← text? entries "user_message"
  let assistantMessage ← text? entries "assistant_message"
  let shaderSource ← text? entries "shader_source"
  pure
    ⟨createdAt, userInput, ⟨.user, userMessage⟩, ⟨.assistant, assistantMessage⟩,
      shaderSource⟩

/-- The turn that a value of a document describes. -/
def ofValue (index : Int) (value : Value) : Except TurnError Turn :=
  match value with
  | .mapping entries =>
      match keys.filter fun name => (Entries.find? entries name).isNone with
      | [] =>
          match ofTexts? entries with
          | some turn => .ok turn
          | none => .error (.notText index)
      | missing => .error (.missingKeys index missing)
  | _ => .error (.notMapping index)

end Turn
end Chat
end ShaderLift
