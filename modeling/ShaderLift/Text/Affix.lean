/-!
# Starts and ends of texts

A text starts or ends with another one character by character.
-/

namespace ShaderLift
namespace Text

/-- The text starts with another one. -/
def startsWith (text start : String) : Bool :=
  start.toList.isPrefixOf text.toList

/-- The text ends with another one. -/
def endsWith (text ending : String) : Bool :=
  ending.toList.isSuffixOf text.toList

theorem startsWith_iff (text start : String) :
    startsWith text start = true ↔ start.toList <+: text.toList :=
  List.isPrefixOf_iff_prefix

theorem endsWith_iff (text ending : String) :
    endsWith text ending = true ↔ ending.toList <:+ text.toList :=
  List.isSuffixOf_iff_suffix

end Text
end ShaderLift
