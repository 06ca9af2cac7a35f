import ShaderLift.Dialect.Basic

/-!
# The header of a converted shader

Version, precision, uniforms, the output variable and the compatibility
macros, in paragraphs divided by blank lines.  The header ends with a blank
line.
-/

namespace ShaderLift
namespace Dialect

/-- The lines of the header. -/
def headerLines (dialect : Dialect) : List String :=
  [dialect.versionDirective, dialect.precision, ""] ++
    dialect.uniforms.map (fun uniform =>
      s!"uniform {uniform.type} {uniform.name};") ++
    ["", s!"out {dialect.output.type} {dialect.output.name};", ""] ++
    if dialect.macros.isEmpty then []
    else
      "// ShaderToy compatibility" ::
        dialect.macros.map (fun shorthand =>
          s!"#define {shorthand.name} {shorthand.target}") ++ [""]

/-- The header, which stands before the converted code. -/
def header (dialect : Dialect) : String :=
  String.join (dialect.headerLines.map (· ++ "\n"))

end Dialect
end ShaderLift
