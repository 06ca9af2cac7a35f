import ShaderLift.Dialect.Basic
import ShaderLift.Shader.Name
import ShaderLift.Shader.Template
import ShaderLift.Text.Blank

/-!
# Renaming the parameters of the entry point

Assignments to the output parameter become assignments to the output variable,
and every use of the coordinate parameter becomes a use of the built-in.  Both
replacements are templates, so a rename fails if its template cannot be read,
whether or not anything would be renamed.
-/

namespace ShaderLift
namespace Shader

open Text

/-- Find an assignment to a standalone name, with the blanks before the equals
sign and the spaces and tabs behind it.  Comparisons are no assignments. -/
def assignmentTo (name : List Char) (parts : List Template.Part) : Search :=
  fun before text =>
    match Name.standsAt name before text with
    | none => none
    | some rest =>
        match rest.dropWhile isBlank with
        | '=' :: '=' :: _ => none
        | '=' :: value =>
            let length := text.length - (value.dropWhile isSpaceOrTab).length
            some ⟨length, Template.expand (text.take length) parts⟩
        | _ => none

/-- Find a use of a standalone name. -/
def useOf (name : List Char) (parts : List Template.Part) : Search :=
  fun before text =>
    match Name.standsAt name before text with
    | none => none
    | some _ => some ⟨name.length, Template.expand name parts⟩

/-- The template of an assignment to the output variable. -/
def outputTemplate (dialect : Dialect) : List Char :=
  dialect.output.name.toList ++ [' ', '=', ' ']

/-- Assign to the output variable wherever the output parameter was assigned
to. -/
def renameOutput
    (dialect : Dialect)
    (source : List Char) : Except Template.Error (List Char) := do
  let parts ← Template.parse (outputTemplate dialect)
  pure (replaceAll (assignmentTo dialect.fragColor.toList parts) source)

/-- Use the built-in wherever the coordinate parameter was used. -/
def renameFragCoord
    (dialect : Dialect)
    (source : List Char) : Except Template.Error (List Char) := do
  let parts ← Template.parse dialect.fragCoordBuiltin.toList
  pure (replaceAll (useOf dialect.fragCoord.toList parts) source)

end Shader
end ShaderLift
