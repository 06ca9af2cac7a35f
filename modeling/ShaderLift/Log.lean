/-!
# Log entries and logged results

Every operation reports what it did as a list of entries.  A logged result is
a value together with its entries, and running one after another concatenates
them.  An attempt may stop with an error; the entries up to that point stay.
-/

namespace ShaderLift

/-- How important a log entry is. -/
inductive Level
  | debug
  | info
  | warning
  | error
deriving Repr, DecidableEq

/-- The name of a level as a log shows it. -/
def Level.name : Level → String
  | .debug => "DEBUG"
  | .info => "INFO"
  | .warning => "WARNING"
  | .error => "ERROR"

/-- One line of the log. -/
structure Entry where
  level : Level
  message : String
deriving Repr, DecidableEq

/-- A value and what was logged while it was computed. -/
structure Logged (α : Type) where
  value : α
  log : List Entry
deriving Repr, DecidableEq

namespace Logged

instance : Monad Logged where
  pure value := ⟨value, []⟩
  bind first next :=
    let second := next first.value
    ⟨second.value, first.log ++ second.log⟩

@[simp] theorem value_pure (value : α) :
    (pure value : Logged α).value = value :=
  rfl

@[simp] theorem log_pure (value : α) :
    (pure value : Logged α).log = [] :=
  rfl

@[simp] theorem value_bind
    (first : Logged α)
    (next : α → Logged β) : (first >>= next).value = (next first.value).value :=
  rfl

@[simp] theorem log_bind
    (first : Logged α)
    (next : α → Logged β) :
    (first >>= next).log = first.log ++ (next first.value).log :=
  rfl

/-- Log one entry. -/
def write (level : Level) (message : String) : Logged Unit :=
  ⟨(), [⟨level, message⟩]⟩

end Logged

/-- A computation that logs and may stop with an error. -/
abbrev Attempt (ε α : Type) :=
  ExceptT ε Logged α

namespace Attempt

/-- Log one entry and go on. -/
def note (level : Level) (message : String) : Attempt ε Unit :=
  ExceptT.lift (Logged.write level message)

/-- An attempt that only logs. -/
def ofLogged (result : Logged α) : Attempt ε α :=
  ExceptT.lift result

/-- An attempt that may only stop. -/
def ofExcept (result : Except ε α) : Attempt ε α :=
  ExceptT.mk (pure result)

/-- Rename the error an attempt may stop with. -/
def mapError (rename : ε → δ) (attempt : Attempt ε α) : Attempt δ α :=
  ExceptT.mk
    ⟨match attempt.run.value with
      | .ok value => .ok value
      | .error problem => .error (rename problem), attempt.run.log⟩

end Attempt

end ShaderLift
