import ShaderLift.Trace

/-!
# What attempts come to

The outcome of an attempt is its value or its error, apart from what it logs.
Outcomes compose like the attempts they belong to, so that a statement about
results can leave the log aside.  The same holds of interactions, whose deeds
are those of the parts that were reached.
-/

namespace ShaderLift

/-- A result comes from a value on the way. -/
theorem bind_eq_ok_iff
    {first : Except ε α}
    {next : α → Except ε β}
    {result : β} :
    (first >>= next) = .ok result ↔
      ∃ value, first = .ok value ∧ next value = .ok result := by
  cases first with
  | error error => simp [bind, Except.bind]
  | ok value => simp [bind, Except.bind]

namespace Attempt

/-- The value or the error of an attempt. -/
def outcome (attempt : Attempt ε α) : Except ε α :=
  attempt.run.value

@[simp] theorem outcome_pure (value : α) :
    outcome (pure value : Attempt ε α) = .ok value :=
  rfl

@[simp] theorem outcome_throw (problem : ε) :
    outcome (throw problem : Attempt ε α) = .error problem :=
  rfl

@[simp] theorem outcome_bind
    (first : Attempt ε α)
    (next : α → Attempt ε β) :
    outcome (first >>= next) =
      first.outcome.bind fun value => (next value).outcome := by
  have bound : outcome (first >>= next) =
      (ExceptT.bindCont next first.run.value).value := rfl
  rw [bound]
  cases ended : first.run.value with
  | ok value => rw [outcome, ended]; rfl
  | error problem => rw [outcome, ended]; rfl

@[simp] theorem outcome_note
    (level : Level)
    (message : String) : outcome (note level message : Attempt ε Unit) = .ok () :=
  rfl

@[simp] theorem outcome_ofLogged (result : Logged α) :
    outcome (ofLogged result : Attempt ε α) = .ok result.value :=
  rfl

@[simp] theorem outcome_ofExcept (result : Except ε α) :
    outcome (ofExcept result) = result :=
  rfl

@[simp] theorem outcome_mapError
    (rename : ε → δ)
    (attempt : Attempt ε α) :
    outcome (attempt.mapError rename) = attempt.outcome.mapError rename := by
  unfold outcome mapError
  rw [ExceptT.run_mk]
  cases attempt.run.value <;> rfl

/-- An attempt that goes on keeps what was logged before. -/
theorem log_bind_of_ok
    {first : Attempt ε α}
    {value : α}
    (succeeds : first.outcome = .ok value)
    (next : α → Attempt ε β) :
    (first >>= next).run.log = first.run.log ++ (next value).run.log := by
  unfold outcome at succeeds
  have bound : (first >>= next).run.log =
      first.run.log ++ (ExceptT.bindCont next first.run.value).log := rfl
  rw [bound, succeeds]
  rfl

end Attempt

namespace Interaction

/-- The value or the error of an interaction. -/
def outcome (interaction : Interaction ω ε α) : Except ε α :=
  interaction.run.value

@[simp] theorem outcome_pure (value : α) :
    outcome (pure value : Interaction ω ε α) = .ok value :=
  rfl

@[simp] theorem outcome_throw (problem : ε) :
    outcome (throw problem : Interaction ω ε α) = .error problem :=
  rfl

@[simp] theorem outcome_perform (deed : ω) :
    outcome (perform deed : Interaction ω ε Unit) = .ok () :=
  rfl

@[simp] theorem outcome_note
    (level : Level)
    (message : String) :
    outcome (note level message : Interaction ω ε Unit) = .ok () :=
  rfl

@[simp] theorem outcome_ofExcept (result : Except ε α) :
    outcome (ofExcept result : Interaction ω ε α) = result :=
  rfl

@[simp] theorem outcome_bind
    (first : Interaction ω ε α)
    (next : α → Interaction ω ε β) :
    outcome (first >>= next) =
      first.outcome.bind fun value => (next value).outcome := by
  have bound : outcome (first >>= next) =
      (ExceptT.bindCont next first.run.value).value := rfl
  rw [bound]
  cases ended : first.run.value with
  | ok value => rw [outcome, ended]; rfl
  | error problem => rw [outcome, ended]; rfl

/-- What is done on the way is done in order. -/
theorem deeds_bind
    (first : Interaction ω ε α)
    (next : α → Interaction ω ε β) :
    (first >>= next).run.deeds =
      first.run.deeds ++
        first.outcome.toOption.elim [] fun value => (next value).run.deeds := by
  have bound : (first >>= next).run.deeds =
      first.run.deeds ++ (ExceptT.bindCont next first.run.value).deeds := rfl
  rw [bound]
  cases ended : first.run.value with
  | ok value => rw [outcome, ended]; rfl
  | error problem => rw [outcome, ended]; rfl

end Interaction
end ShaderLift
