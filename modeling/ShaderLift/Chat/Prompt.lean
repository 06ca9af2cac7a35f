import ShaderLift.Chat.Message
import ShaderLift.Chat.Turn
import ShaderLift.Text.Blank

/-!
# Prompts

A prompt holds the system's rules, the earlier turns in order and the new
request.  Shader code stands in a fenced block, the same form that a reply is
asked to have.
-/

namespace ShaderLift
namespace Chat

/-- The mark that opens and closes a block of code. -/
def fence : String :=
  "```"

/-- The mark that opens a block of shader code. -/
def shaderFence : String :=
  fence ++ "glsl"

/-- The rules that every conversation starts with. -/
def systemPrompt : String :=
  String.intercalate "\n"
    ["",
      "You are a skilled graphics shader programmer.",
      "",
      "You answer the user's prompts with only valid webgl glsl code.",
      "",
      "The user might either want you to fix or in some other way alter some " ++
        "provided shader code or",
      "they might ask you to write a shader from scratch.",
      "",
      "Every answer should be a valid glsl shader program in the following " ++
        "format. You may define additional",
      "functions as needed.",
      "",
      shaderFence,
      "#version 300 es",
      "precision highp float;",
      "",
      "uniform vec2 u_resolution;",
      "uniform float u_time;",
      "",
      "out vec4 out_color;",
      "",
      "void main() \x7b",
      "    // Implement the shader here.",
      "    out_color = vec4(1.0, 1.0, 1.0, 1.0);",
      "\x7d",
      fence,
      ""]

/-- A block of shader code. -/
def shaderBlock (code : String) : String :=
  shaderFence ++ "\n" ++ code ++ "\n" ++ fence

/-- The request for a revision of a shader. -/
def userMessage (instruction code : String) : Message :=
  ⟨.user, Text.trimmed
    ("\nCurrent shader code:\n" ++ shaderBlock code ++ "\n\n" ++ instruction ++
      "\n")⟩

/-- The record of the shader that a reply held. -/
def assistantMessage (code : String) : Message :=
  ⟨.assistant, Text.trimmed
    ("\nAssistant generated shader code:\n" ++ shaderBlock code ++ "\n")⟩

/-- The whole conversation that a request ends. -/
def prompt (turns : List Turn) (request : Message) : List Message :=
  [⟨.system, systemPrompt⟩] ++ turns.flatMap Turn.messages ++ [request]

end Chat
end ShaderLift
