/-!
# Dialects

A dialect says what the converted shader looks like: its header, the names of
the parameters that the entry point had, the names that replace them, and the
names that an alias may be resolved to.
-/

namespace ShaderLift

/-- A declared variable: its name and its type. -/
structure Variable where
  name : String
  type : String
deriving Repr, DecidableEq

/-- A compatibility macro: a name and the name that it stands for. -/
structure Macro where
  name : String
  target : String
deriving Repr, DecidableEq

/-- The target of a conversion. -/
structure Dialect where
  /-- First line of the header. -/
  versionDirective : String := "#version 300 es"
  /-- Second line of the header. -/
  precision : String := "precision highp float;"
  /-- Uniforms in header order. -/
  uniforms : List Variable :=
    [⟨"u_resolution", "vec2"⟩, ⟨"u_time", "float"⟩, ⟨"u_mouse", "float"⟩,
      ⟨"u_mouse_button", "vec4"⟩, ⟨"u_buffer0", "sampler2D"⟩,
      ⟨"u_buffer1", "sampler2D"⟩, ⟨"u_buffer2", "sampler2D"⟩,
      ⟨"u_buffer3", "sampler2D"⟩]
  /-- The variable that the shader writes. -/
  output : Variable := ⟨"out_color", "vec4"⟩
  /-- Compatibility macros in header order. -/
  macros : List Macro :=
    [⟨"iResolution", "u_resolution"⟩, ⟨"iTime", "u_time"⟩,
      ⟨"iMouse", "u_mouse"⟩, ⟨"iMouseButton", "u_mouse_button"⟩,
      ⟨"iChannel0", "u_buffer0"⟩, ⟨"iChannel1", "u_buffer1"⟩,
      ⟨"iChannel2", "u_buffer2"⟩, ⟨"iChannel3", "u_buffer3"⟩]
  /-- What an alias may stand for and still be resolved. -/
  canonicalIdentifiers : List String := ["iTime", "iResolution.xy"]
  /-- Name of the output parameter of the entry point. -/
  fragColor : String := "fragColor"
  /-- Name of the coordinate parameter of the entry point. -/
  fragCoord : String := "fragCoord"
  /-- What replaces the coordinate parameter. -/
  fragCoordBuiltin : String := "gl_FragCoord"
deriving Repr, DecidableEq

namespace Dialect

/-- The built-in dialect. -/
def builtin : Dialect :=
  {}

end Dialect
end ShaderLift
