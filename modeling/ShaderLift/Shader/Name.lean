import ShaderLift.Text.Character
import ShaderLift.Text.Replace

/-!
# Standalone names

A name stands alone where it is neither part of a longer word nor a member:
no word character and no dot stands right before it, and a word boundary lies
right behind it.
-/

namespace ShaderLift
namespace Shader
namespace Name

open Text

/-- A character behind which no standalone name starts. -/
def attaches (c : Char) : Bool :=
  isWord c || c == '.'

/-- What is left of the text behind the name, if the name stands alone at its
beginning. -/
def standsAt
    (name : List Char)
    (before : Option Char)
    (text : List Char) : Option (List Char) :=
  if before.any attaches then none
  else
    match dropExact name text with
    | none => none
    | some rest =>
        if isBoundary (name.getLast?.or before) rest.head? then some rest
        else none

/-- What is left behind the name is a suffix of the text. -/
theorem eq_append_of_standsAt
    {name : List Char}
    {before : Option Char}
    {text rest : List Char}
    (stands : standsAt name before text = some rest) : text = name ++ rest := by
  unfold standsAt at stands
  split at stands
  · contradiction
  · split at stands
    · contradiction
    · next left found =>
        split at stands
        · rw [Option.some.injEq] at stands
          rw [← stands]
          exact (dropExact_eq_some_iff name text left).mp found
        · contradiction

end Name
end Shader
end ShaderLift
