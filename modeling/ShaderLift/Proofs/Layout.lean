import ShaderLift.Proofs.Glyph
import ShaderLift.Proofs.Replacement
import ShaderLift.Shader.Layout

/-!
# What the layout does to a text

Indenting, shrinking blank lines and trimming change no glyph, so the glyphs of
formatted code are those of the pieces that its lines are broken into.
-/

namespace ShaderLift
namespace Shader

open Text

/-! ## Blank lines -/

/-- A run of blank lines is made of blanks with a line end among them. -/
theorem exists_run_of_blankLines
    {before : Option Char}
    {text : List Char}
    {occurrence : Occurrence}
    (found : blankLines before text = some occurrence) :
    ∃ run rest, text = run ++ rest ∧ occurrence.length = run.length ∧
      (∀ c ∈ run, isBlank c = true) ∧ '\n' ∈ run ∧
      occurrence.replacement = ['\n', '\n'] := by
  unfold blankLines at found
  split at found
  · next rest =>
      dsimp only at found
      split at found
      · rw [Option.some.injEq] at found
        subst found
        let run := '\n' :: rest.takeWhile isBlank
        have blank : ∀ c ∈ run, isBlank c = true := by
          intro c member
          rcases List.mem_cons.mp member with rfl | later
          · exact isBlank_newline
          · exact List.mem_takeWhile_imp later
        obtain ⟨dropped, divided, unbroken⟩ :=
          exists_dropped_of_dropTrailing (· != '\n') run
        refine ⟨dropTrailing (· != '\n') run,
          dropped ++ rest.dropWhile isBlank, ?_, rfl, ?_, ?_, rfl⟩
        · rw [← List.append_assoc, ← divided, List.cons_append,
            List.takeWhile_append_dropWhile]
        · intro c member
          exact blank c (by rw [divided]; exact List.mem_append_left _ member)
        · have first : '\n' ∈ run := List.mem_cons_self
          rw [divided] at first
          rcases List.mem_append.mp first with kept | lost
          · exact kept
          · exact absurd (unbroken '\n' lost) (by decide)
      · contradiction
  · contradiction

theorem isBounded_blankLines : Search.IsBounded blankLines := by
  intro before text occurrence found
  obtain ⟨run, rest, rfl, length, -⟩ := exists_run_of_blankLines found
  simp [length]

/-- Shrinking runs of blank lines changes no glyph. -/
theorem glyphsFrom_of_replaced_blankLines
    {before : Option Char}
    {text written : List Char}
    (replaced : Replaced blankLines before text written)
    (gap : Gap) :
    glyphsFrom gap written = glyphsFrom gap text := by
  induction replaced generalizing gap with
  | nil => rfl
  | @keep before c rest written absent _ inductionHypothesis =>
      cases shown : isBlank c with
      | true =>
          rw [glyphsFrom_cons_blank shown, glyphsFrom_cons_blank shown,
            inductionHypothesis]
      | false =>
          rw [glyphsFrom_cons_visible shown, glyphsFrom_cons_visible shown,
            inductionHypothesis]
  | insert found =>
      obtain ⟨run, rest, -, length, -, broken, -⟩ :=
        exists_run_of_blankLines found
      rw [List.eq_nil_of_length_eq_zero length.symm] at broken
      contradiction
  | @replace before taken rest replacement written found _ _
      inductionHypothesis =>
      obtain ⟨run, behind, divided, length, blank, broken, rfl⟩ :=
        exists_run_of_blankLines found
      have same : taken = run :=
        (List.append_inj divided length).1
      have twoEnds : ∀ c ∈ ['\n', '\n'], isBlank c = true := by simp
      rw [same, glyphsFrom_append, glyphsFrom_append,
        glyphsFrom_of_blank twoEnds, glyphsFrom_of_blank blank,
        gapAfter_of_newline twoEnds (by decide),
        gapAfter_of_newline blank broken, inductionHypothesis]

theorem glyphs_collapseBlankLines (code : List Char) :
    glyphs (collapseBlankLines code) = glyphs code :=
  glyphsFrom_of_replaced_blankLines
    (replaced_replaceAll isBounded_blankLines code) .lineEnd

/-! ## Indentation -/

/-- Indenting a line changes no glyph. -/
theorem glyphs_indentLine
    (level : Int)
    (line : List Char) : glyphs (indentLine level line).1 = glyphs line := by
  rw [← glyphs_trim line]
  simp only [indentLine]
  split
  · next empty => rw [List.isEmpty_iff.mp empty]
  · apply glyphs_blank_append
    intro c member
    rw [List.eq_of_mem_replicate member]
    exact isBlank_space

theorem flatMap_glyphs_indentLines
    (level : Int)
    (lines : List (List Char)) :
    (indentLines level lines).1.flatMap glyphs = lines.flatMap glyphs := by
  induction lines generalizing level with
  | nil => rfl
  | cons line rest inductionHypothesis =>
      simp only [indentLines, List.flatMap_cons]
      rw [glyphs_indentLine, inductionHypothesis]

/-- The glyphs of formatted code are those of its pieces. -/
theorem glyphs_format (code : List Char) :
    glyphs (format code) = (layoutBraces code).1.flatMap glyphs := by
  have formatted : format code =
      trim (collapseBlankLines (joinFields ['\n']
        (indentLines 0 (layoutBraces code).1).1)) := rfl
  rw [formatted, glyphs_trim, glyphs_collapseBlankLines, glyphs_joinFields,
    flatMap_glyphs_indentLines]

end Shader
end ShaderLift
