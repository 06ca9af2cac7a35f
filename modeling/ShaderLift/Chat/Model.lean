/-!
# Models and vendors

Every known model is served by one of two vendors.  A vendor is reached with a
key from the environment.
-/

namespace ShaderLift
namespace Chat

/-- Who serves a model. -/
inductive Vendor
  | openAI
  | anthropic
deriving Repr, DecidableEq

namespace Vendor

/-- The models that a vendor serves. -/
def models : Vendor → List String
  | .openAI => ["gpt-4-turbo", "gpt-3.5-turbo"]
  | .anthropic => ["claude-3-5-sonnet-20241022"]

/-- The name of a vendor. -/
def name : Vendor → String
  | .openAI => "OpenAI"
  | .anthropic => "Anthropic"

/-- What the models of a vendor are called together. -/
def family : Vendor → String
  | .openAI => "OpenAI"
  | .anthropic => "Claude"

/-- The environment variable that holds the key for a vendor. -/
def keyName : Vendor → String
  | .openAI => "OPENAI_API_KEY"
  | .anthropic => "ANTHROPIC_API_KEY"

end Vendor

/-- Every known model. -/
def availableModels : List String :=
  Vendor.openAI.models ++ Vendor.anthropic.models

/-- The model that is asked unless another one is named. -/
def defaultModel : String :=
  "claude-3-5-sonnet-20241022"

/-- The vendor that serves a model. -/
def vendorOf? (model : String) : Option Vendor :=
  [Vendor.openAI, Vendor.anthropic].find? fun vendor =>
    vendor.models.contains model

/-! ## Environment -/

/-- The variables of the environment; the last value of a name counts. -/
abbrev Environment :=
  List (String × String)

/-- The value of a variable; an empty value counts as none. -/
def Environment.find?
    (environment : Environment)
    (name : String) : Option String :=
  match environment.reverse.find? fun entry => entry.1 == name with
  | some (_, value) => if value = "" then none else some value
  | none => none

end Chat
end ShaderLift
