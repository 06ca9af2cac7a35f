import ShaderLift.Dialect.Basic
import ShaderLift.Log
import ShaderLift.Shader.Define
import ShaderLift.Shader.Name

/-!
# Resolving aliases

A use of an alias becomes a use of what it stands for.  If that has a swizzle
and the use selects one of its components, the component is selected directly:
with `res` for `iResolution.xy`, `res.x` becomes `iResolution.x`.
-/

namespace ShaderLift
namespace Shader

open Text

/-- The part of a value before its first dot. -/
def baseOf (value : List Char) : List Char :=
  value.takeWhile (· != '.')

/-- The part of a value behind its first dot; empty if there is none. -/
def swizzleOf (value : List Char) : List Char :=
  (value.dropWhile (· != '.')).drop 1

/-- What a use of an alias with a member becomes. -/
def resolveMember (value member : List Char) : List Char :=
  match member with
  | [component] =>
      if (swizzleOf value).contains component then
        baseOf value ++ ['.', component]
      else value ++ '.' :: member
  | _ => value ++ '.' :: member

/-- Find a use of an alias, with the member it selects. -/
def aliasUse (name value : List Char) : Search :=
  fun before text =>
    match Name.standsAt name before text with
    | none => none
    | some ('.' :: rest) =>
        match Define.takeName rest with
        | none => some ⟨name.length, value⟩
        | some (member, _) =>
            some ⟨name.length + 1 + member.length, resolveMember value member⟩
    | some _ => some ⟨name.length, value⟩

/-- Replace every use of an alias by what it stands for. -/
def substituteAlias (source name value : List Char) : List Char :=
  replaceAll (aliasUse name value) source

/-- Resolve the aliases of a table one after another.  Those that stand for
something the dialect does not know are left in place. -/
def substituteDefines (dialect : Dialect) :
    Define.Table → List Char → Logged (List Char)
  | [], source => pure source
  | define :: rest, source => do
      let name := define.name
      let value := define.value
      if dialect.canonicalIdentifiers.contains value then
        Logged.write .debug s!"Substituting alias {name} -> {value}"
        substituteDefines dialect rest
          (substituteAlias source name.toList value.toList)
      else
        Logged.write .warning
          (s!"Define {name} = {value} is not a known ShaderToy identifier; " ++
            "its uses are left as is")
        substituteDefines dialect rest source

end Shader
end ShaderLift
