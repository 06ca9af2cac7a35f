import ShaderLift.Log

/-!
# Traced results

An operation that deals with the world outside, with a vendor or with an
observer, does so by deeds.  A traced result is a value together with its log
and its deeds, both in order.  An interaction may stop with an error; what was
logged and done up to that point stays.
-/

namespace ShaderLift

/-- A value, what was logged while it was computed, and what was done to the
world outside. -/
structure Traced (ω α : Type) where
  value : α
  log : List Entry := []
  deeds : List ω := []
deriving Repr, DecidableEq

namespace Traced

instance : Monad (Traced ω) where
  pure value := { value := value }
  bind first next :=
    let second := next first.value
    ⟨second.value, first.log ++ second.log, first.deeds ++ second.deeds⟩

/-- Nothing interrupts a traced result, so that whatever is to be done at its
end is done after it. -/
instance : MonadFinally (Traced ω) where
  tryFinally' first last := do
    let value ← first
    let ended ← last (some value)
    pure (value, ended)

@[simp] theorem value_pure (value : α) :
    (pure value : Traced ω α).value = value :=
  rfl

@[simp] theorem deeds_pure (value : α) :
    (pure value : Traced ω α).deeds = [] :=
  rfl

@[simp] theorem value_bind
    (first : Traced ω α)
    (next : α → Traced ω β) :
    (first >>= next).value = (next first.value).value :=
  rfl

@[simp] theorem deeds_bind
    (first : Traced ω α)
    (next : α → Traced ω β) :
    (first >>= next).deeds = first.deeds ++ (next first.value).deeds :=
  rfl

/-- Do one thing. -/
def perform (deed : ω) : Traced ω Unit :=
  { value := (), deeds := [deed] }

/-- A result that only logs. -/
def ofLogged (result : Logged α) : Traced ω α :=
  { value := result.value, log := result.log }

end Traced

/-- A computation that logs, deals with the world outside and may stop with an
error. -/
abbrev Interaction (ω ε α : Type) :=
  ExceptT ε (Traced ω) α

namespace Interaction

/-- Do one thing and go on. -/
def perform (deed : ω) : Interaction ω ε Unit :=
  ExceptT.lift (Traced.perform deed)

/-- Log one entry and go on. -/
def note (level : Level) (message : String) : Interaction ω ε Unit :=
  ExceptT.lift (Traced.ofLogged (Logged.write level message))

/-- An interaction that may only stop. -/
def ofExcept (result : Except ε α) : Interaction ω ε α :=
  ExceptT.mk (pure result)

end Interaction

end ShaderLift
