/-!
# Replacing occurrences from left to right

A search looks at the character before a place and at the text from there, and
says whether an occurrence starts at that place.  Replacement walks the text
once: it writes the replacement of an occurrence, passes over the characters
of the occurrence and goes on behind it.
-/

namespace ShaderLift
namespace Text

/-- An occurrence found at a place of a text. -/
structure Occurrence where
  /-- How many characters the occurrence takes. -/
  length : Nat
  /-- What stands in their place afterwards. -/
  replacement : List Char
deriving Repr, DecidableEq

/-- Say whether an occurrence starts here, from the character before and the
text that follows. -/
abbrev Search :=
  Option Char → List Char → Option Occurrence

/-- Replace occurrences after passing over the first characters of the text.
An occurrence of no characters is written before the next character. -/
def replaceFrom (search : Search) :
    Nat → Option Char → List Char → List Char
  | _, _, [] => []
  | skipped + 1, _, c :: cs => replaceFrom search skipped (some c) cs
  | 0, before, c :: cs =>
      match search before (c :: cs) with
      | none => c :: replaceFrom search 0 (some c) cs
      | some ⟨0, replacement⟩ =>
          replacement ++ c :: replaceFrom search 0 (some c) cs
      | some ⟨taken + 1, replacement⟩ =>
          replacement ++ replaceFrom search taken (some c) cs

/-- Replace every occurrence in a text. -/
def replaceAll (search : Search) (text : List Char) : List Char :=
  replaceFrom search 0 none text

@[simp] theorem replaceFrom_nil
    (search : Search)
    (skipped : Nat)
    (before : Option Char) : replaceFrom search skipped before [] = [] := by
  cases skipped <;> rfl

@[simp] theorem replaceFrom_skip
    (search : Search)
    (skipped : Nat)
    (before : Option Char)
    (c : Char)
    (cs : List Char) :
    replaceFrom search (skipped + 1) before (c :: cs) =
      replaceFrom search skipped (some c) cs :=
  rfl

/-- Remove an exact beginning of a text. -/
def dropExact : List Char → List Char → Option (List Char)
  | [], text => some text
  | _ :: _, [] => none
  | wanted :: more, c :: cs => if wanted = c then dropExact more cs else none

/-- Removing an exact beginning undoes putting it in front. -/
theorem dropExact_eq_some_iff (beginning text rest : List Char) :
    dropExact beginning text = some rest ↔ text = beginning ++ rest := by
  induction beginning generalizing text with
  | nil => simp [dropExact, eq_comm]
  | cons wanted more inductionHypothesis =>
      cases text with
      | nil => simp [dropExact]
      | cons c cs =>
          by_cases same : wanted = c
          · simp [dropExact, same, inductionHypothesis]
          · simp [dropExact, same, eq_comm]

end Text
end ShaderLift
