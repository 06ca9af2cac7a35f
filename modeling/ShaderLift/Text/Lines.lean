/-!
# Lines

Cutting a text at a separator, cutting it into lines that keep their ends, and
the single line end that every read text has.
-/

namespace ShaderLift
namespace Text

/-- The parts of a text between occurrences of a separator; there is always at
least one part. -/
def fields (separator : Char) : List Char → List (List Char)
  | [] => [[]]
  | c :: cs =>
      if c = separator then [] :: fields separator cs
      else
        match fields separator cs with
        | [] => [[c]]
        | field :: rest => (c :: field) :: rest

/-- Put a separator between consecutive parts. -/
def joinFields (separator : List Char) : List (List Char) → List Char
  | [] => []
  | [field] => field
  | field :: rest => field ++ separator ++ joinFields separator rest

/-- The lines of a text, each with the line end that closes it.  Only the last
one may lack its end, and no line is empty. -/
def closedLines : List Char → List (List Char)
  | [] => []
  | c :: cs =>
      if c = '\n' then ['\n'] :: closedLines cs
      else
        match closedLines cs with
        | [] => [[c]]
        | line :: rest => (c :: line) :: rest

/-- Read every line end, whether carriage return, line feed or both, as one
line feed. -/
def unifyLineEnds : List Char → List Char
  | [] => []
  | '\r' :: '\n' :: cs => '\n' :: unifyLineEnds cs
  | '\r' :: cs => '\n' :: unifyLineEnds cs
  | c :: cs => c :: unifyLineEnds cs

/-- The lines of a text are the text. -/
theorem flatten_closedLines (text : List Char) :
    (closedLines text).flatten = text := by
  induction text with
  | nil => rfl
  | cons c cs inductionHypothesis =>
      rw [closedLines]
      split
      · next isEnd => rw [List.flatten_cons, inductionHypothesis, isEnd]; rfl
      · split
        · next noLine =>
            rw [noLine] at inductionHypothesis
            rw [← inductionHypothesis]
            rfl
        · next line rest lines =>
            rw [lines] at inductionHypothesis
            rw [List.flatten_cons, List.cons_append, ← List.flatten_cons,
              inductionHypothesis]

/-- There is always a field, though it may be empty. -/
theorem fields_ne_nil
    (separator : Char)
    (text : List Char) : fields separator text ≠ [] := by
  cases text with
  | nil => simp [fields]
  | cons c cs =>
      rw [fields]
      split
      · simp
      · split <;> simp

/-- Joining the fields again gives the text. -/
theorem joinFields_fields
    (separator : Char)
    (text : List Char) : joinFields [separator] (fields separator text) = text := by
  induction text with
  | nil => rfl
  | cons c cs inductionHypothesis =>
      rw [fields]
      cases parts : fields separator cs with
      | nil => exact absurd parts (fields_ne_nil separator cs)
      | cons field rest =>
          rw [parts] at inductionHypothesis
          split
          · next isSeparator =>
              rw [joinFields, inductionHypothesis, isSeparator]
              · rfl
              · simp
          · cases rest with
            | nil =>
                rw [joinFields] at inductionHypothesis ⊢
                rw [inductionHypothesis]
            | cons next more =>
                rw [joinFields] at inductionHypothesis ⊢
                · rw [← inductionHypothesis]; rfl
                · simp
                · simp

end Text
end ShaderLift
