import ShaderLift.Chat.Prompt
import ShaderLift.Text.Replace

/-!
# Replies

The shader in a reply stands between the first mark that opens a block of
shader code and the last mark that closes a block, with at least one character
between them.
-/

namespace ShaderLift
namespace Chat

open Text

/-- What follows the first occurrence of a mark. -/
def afterFirst (mark : List Char) : List Char → Option (List Char)
  | [] => dropExact mark []
  | c :: rest =>
      match dropExact mark (c :: rest) with
      | some after => some after
      | none => afterFirst mark rest

/-- What comes before the last occurrence of a mark. -/
def beforeLast (mark : List Char) : List Char → Option (List Char)
  | [] => if (dropExact mark []).isSome then some [] else none
  | c :: rest =>
      match beforeLast mark rest with
      | some before => some (c :: before)
      | none => if (dropExact mark (c :: rest)).isSome then some [] else none

/-- The content of the fenced block in a reply. -/
def fencedBlock (reply : List Char) : Option (List Char) :=
  match afterFirst shaderFence.toList reply with
  | none | some [] => none
  | some (first :: rest) =>
      (beforeLast fence.toList rest).map fun content => first :: content

/-- The shader in a reply. -/
def shaderOf (reply : String) : Option String :=
  (fencedBlock reply.toList).map fun content => String.ofList (trim content)

end Chat
end ShaderLift
