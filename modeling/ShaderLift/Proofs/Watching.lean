import ShaderLift.CommandLine.Watch
import ShaderLift.Proofs.Attempt

/-!
# Parts of a watch

A part of a watch that starts with some files comes to a result, leaves files
and does something with the observer.  What it comes to is followed from part to
part: one behind the other, over an error that is caught, and through the last
part of a watch, which is done whatever came before it.
-/

namespace ShaderLift
namespace CommandLine

namespace Watching

/-- What a part of a watch comes to. -/
structure Ends
    (part : Watching ε α)
    (files : FileStore)
    (result : Except ε α)
    (left : FileStore)
    (actions : List ObserverAction) : Prop where
  value : (part.run files).value = (result, left)
  deeds : (part.run files).deeds = actions

/-! ## Single parts -/

theorem ends_pure
    (value : α)
    (files : FileStore) :
    Ends (pure value : Watching ε α) files (.ok value) files [] :=
  ⟨rfl, rfl⟩

theorem ends_throw
    (problem : ε)
    (files : FileStore) :
    Ends (throw problem : Watching ε α) files (.error problem) files [] :=
  ⟨rfl, rfl⟩

theorem ends_note
    (level : Level)
    (message : String)
    (files : FileStore) :
    Ends (note level message : Watching ε Unit) files (.ok ()) files [] :=
  ⟨rfl, rfl⟩

theorem ends_set (changed files : FileStore) :
    Ends (set changed : Watching ε Unit) files (.ok ()) changed [] :=
  ⟨rfl, rfl⟩

theorem ends_attempt
    {action : FileStore → Attempt ε α}
    {files : FileStore}
    {result : Except ε α}
    (comes : (action files).outcome = result) :
    Ends (attempt action) files result files [] := by
  subst comes
  exact ⟨rfl, rfl⟩

/-! ## Part after part -/

section Composition

variable {files between left : FileStore}
variable {actions more : List ObserverAction}

/-- Go on with a value or after an error. -/
def goOn
    (next : α → Watching δ β)
    (handler : ε → Watching δ β) : Except ε α → Watching δ β
  | .ok value => next value
  | .error problem => handler problem

/-- A part that goes on after another ends where that takes it. -/
theorem Ends.andThen
    {first : Watching ε α}
    {whole : Watching δ β}
    {ended : Except ε α}
    {result : Except δ β}
    (ends : Ends first files ended between actions)
    (next : Except ε α → Watching δ β)
    (runs : whole.run files =
      (first.run files >>= fun ended => (next ended.1).run ended.2))
    (endsNext : Ends (next ended) between result left more) :
    Ends whole files result left (actions ++ more) := by
  constructor
  · rw [runs, Traced.value_bind, ends.value]
    exact endsNext.value
  · rw [runs, Traced.deeds_bind, ends.value, ends.deeds]
    exact congrArg (actions ++ ·) endsNext.deeds

theorem run_bind
    (first : Watching ε α)
    (next : α → Watching ε β)
    (files : FileStore) :
    (first >>= next).run files =
      (first.run files >>= fun ended => (goOn next throw ended.1).run ended.2) := by
  have bound : (first >>= next).run files =
      (first.run files >>= fun ended => ExceptT.bindCont next ended.1 ended.2) := rfl
  rw [bound]
  congr 1
  funext ⟨ended, left⟩
  cases ended <;> rfl

theorem Ends.bind
    {first : Watching ε α}
    {next : α → Watching ε β}
    {value : α}
    {result : Except ε β}
    (ends : Ends first files (.ok value) between actions)
    (endsNext : Ends (next value) between result left more) :
    Ends (first >>= next) files result left (actions ++ more) :=
  ends.andThen (goOn next throw) (run_bind first next files) endsNext

/-- Nothing follows a part that stops. -/
theorem Ends.bind_error
    {first : Watching ε α}
    {problem : ε}
    (ends : Ends first files (.error problem) left actions)
    (next : α → Watching ε β) :
    Ends (first >>= next) files (.error problem) left actions := by
  have ended : Ends (first >>= next) files (.error problem) left (actions ++ []) :=
    ends.andThen (goOn next throw) (run_bind first next files) (ends_throw problem left)
  rwa [List.append_nil] at ended

theorem run_rescue
    (first : Watching ε α)
    (handler : ε → Watching δ α)
    (files : FileStore) :
    (first.rescue handler).run files =
      (first.run files >>= fun ended => (goOn pure handler ended.1).run ended.2) := by
  rcases runs : first files with ⟨⟨ended, left⟩, log, deeds⟩
  unfold rescue
  simp only [ExceptT.mk, bind, StateT.bind, ExceptT.run]
  rw [runs]
  cases ended <;> rfl

theorem Ends.rescue
    {first : Watching ε α}
    {handler : ε → Watching δ α}
    {ended : Except ε α}
    {result : Except δ α}
    (ends : Ends first files ended between actions)
    (endsHandler : Ends (goOn pure handler ended) between result left more) :
    Ends (first.rescue handler) files result left (actions ++ more) :=
  ends.andThen (goOn pure handler) (run_rescue first handler files) endsHandler

/-- The last part is run after the first one, and then its result is taken up
again. -/
theorem run_finally
    (first last : Watching ε Unit)
    (files : FileStore) :
    (tryFinally first last).run files =
      (first.run files >>= fun ended =>
        (last >>= fun _ => ExceptT.mk (pure ended.1)).run ended.2) := by
  rcases runs : first files with ⟨⟨result, between⟩, log, deeds⟩
  rcases closes : last between with ⟨⟨closed, left⟩, logLast, deedsLast⟩
  simp only [tryFinally, tryFinally', Functor.map, ExceptT.map, ExceptT.mk, bind,
    StateT.bind, ExceptT.run, ExceptT.bind]
  rw [runs]
  -- The steps that only pass the results on log nothing and do nothing.
  have passed {β : Type} (front back : List β) :
      front ++ (back ++ []) ++ [] ++ [] ++ [] = front ++ (back ++ []) := by
    simp only [List.append_nil]
  cases result <;> simp only [closes] <;> cases closed <;>
    exact congr (congr (congrArg Traced.mk rfl) (passed log logLast))
      (passed deeds deedsLast)

/-- What is to be done at last is done, whatever the part came to.  Its own error
comes before that of the part. -/
theorem Ends.finally
    {first last : Watching ε Unit}
    {result closed : Except ε Unit}
    (ends : Ends first files result between actions)
    (endsLast : Ends last between closed left more) :
    Ends (tryFinally first last) files (closed.bind fun _ => result) left
      (actions ++ more) := by
  refine ends.andThen (fun ended => last >>= fun _ => ExceptT.mk (pure ended))
    (run_finally first last files) ?_
  cases closed with
  | error problem => exact endsLast.bind_error _
  | ok _ =>
      have taken : Ends (ExceptT.mk (pure result) : Watching ε Unit) left result
          left [] := ⟨rfl, rfl⟩
      have ended : Ends (last >>= fun _ => ExceptT.mk (pure result)) between
          result left (more ++ []) := endsLast.bind taken
      rwa [List.append_nil] at ended

end Composition

/-! ## Changes -/

section Changes

variable {files left : FileStore}
variable {action : FileStore → Attempt FileStore.WriteFailure FileStore}

theorem ends_change_of_ok
    (changes : (action files).outcome = .ok left) :
    Ends (change action) files (.ok ()) left [] :=
  ((ends_attempt changes).bind (ends_set left files)).rescue (ends_pure () left)

/-- Changes that fail may leave other files too. -/
theorem ends_change_of_error
    {failure : FileStore.WriteFailure}
    (fails : (action files).outcome = .error failure) :
    Ends (change action) files
      (.error (.failed (.ofWriteError failure.error))) failure.files [] :=
  ((ends_attempt fails).bind_error _).rescue
    ((ends_set failure.files files).bind (ends_throw _ failure.files))

end Changes
end Watching

open Watching

/-! ## The observer -/

namespace Observer

/-- What is done when these things are to be done in turn: everything up to the
first one that fails. -/
def done (observer : Observer) : List ObserverAction → List ObserverAction
  | [] => []
  | action :: rest =>
      action :: (observer.faults action).elim (observer.done rest) fun _ => []

/-- What it comes to. -/
def verdict
    (observer : Observer)
    (actions : List ObserverAction) : Except Stop Unit :=
  (actions.findSome? observer.faults).elim (.ok ()) fun detail =>
    .error (.failed (.observer detail))

/-- What a watch does with its observer before it waits. -/
def opening (directory : String) : List ObserverAction :=
  [.schedule directory false, .start]

/-- What it does with it afterwards. -/
def closing : List ObserverAction :=
  [.stop, .join]

section Actions

variable {observer : Observer} {actions : List ObserverAction}

theorem done_append_of_none
    (works : actions.findSome? observer.faults = none)
    (more : List ObserverAction) :
    observer.done (actions ++ more) = actions ++ observer.done more := by
  induction actions with
  | nil => rfl
  | cons action rest inductionHypothesis =>
      rw [List.findSome?_eq_none_iff, List.forall_mem_cons,
        ← List.findSome?_eq_none_iff] at works
      rw [List.cons_append, done, works.1, Option.elim_none,
        inductionHypothesis works.2, List.cons_append]

theorem done_of_none (works : actions.findSome? observer.faults = none) :
    observer.done actions = actions := by
  have appended := done_append_of_none works []
  rwa [List.append_nil, done, List.append_nil] at appended

theorem done_append_of_some
    {detail : String}
    (fails : actions.findSome? observer.faults = some detail)
    (more : List ObserverAction) :
    observer.done (actions ++ more) = observer.done actions := by
  induction actions with
  | nil => exact nomatch fails
  | cons action rest inductionHypothesis =>
      rw [List.cons_append, done, done]
      cases first : observer.faults action with
      | some problem => rfl
      | none =>
          rw [List.findSome?_cons, first] at fails
          rw [Option.elim_none, Option.elim_none, inductionHypothesis fails]

theorem ends_perform
    (observer : Observer)
    (action : ObserverAction)
    (files : FileStore) :
    Ends (observer.perform action) files (observer.verdict [action]) files
      (observer.done [action]) := by
  unfold perform verdict done
  rw [List.findSome?_singleton]
  cases observer.faults action with
  | none => exact ⟨rfl, rfl⟩
  | some detail => exact ⟨rfl, rfl⟩

/-- Of two things that are to be done in turn the second waits for the first. -/
theorem ends_perform_pair
    (observer : Observer)
    (first second : ObserverAction)
    (files : FileStore) :
    Ends (do observer.perform first; observer.perform second) files
      (observer.verdict [first, second]) files (observer.done [first, second]) := by
  have performed := observer.ends_perform first files
  have next := observer.ends_perform second files
  unfold verdict at performed next ⊢
  rw [List.findSome?_singleton] at performed
  rw [List.findSome?_cons, done]
  rw [done] at performed
  cases fault : observer.faults first with
  | some detail =>
      rw [fault] at performed
      exact performed.bind_error _
  | none =>
      rw [fault] at performed
      exact performed.bind next

theorem ends_setUp
    (observer : Observer)
    (directory : String)
    (files : FileStore) :
    Ends (observer.setUp directory) files (observer.verdict (opening directory))
      files (observer.done (opening directory)) :=
  observer.ends_perform_pair _ _ files

theorem ends_tearDown
    (observer : Observer)
    (files : FileStore) :
    Ends observer.tearDown files (observer.verdict closing) files
      (observer.done closing) :=
  observer.ends_perform_pair _ _ files

end Actions
end Observer

/-! ## The wait -/

/-- What a wait comes to that nothing else ended before. -/
def Departure.result : Departure → Except Disruption Unit
  | .dead => .ok ()
  | .interrupted => .error .interrupted
  | .failed detail => .error (.stopped (.failed (.observer detail)))

namespace Watcher

variable {watcher : Watcher} {observer : Observer}
variable {files next left : FileStore}

theorem ends_handle_of_ok
    {event : WatchEvent}
    (reacts : (watcher.react event files).outcome = .ok next) :
    Ends (watcher.handle observer event) files (.ok true) next [] := by
  have changed : Ends
      (do
        Watching.change (watcher.react event)
        pure true)
      files (.ok true) next [] :=
    (ends_change_of_ok reacts).bind (ends_pure true next)
  exact changed.rescue (ends_pure true next)

/-- A reaction that fails ends the wait, or the observer dies of it. -/
theorem ends_handle_of_error
    {event : WatchEvent}
    {failure : FileStore.WriteFailure}
    (fails : (watcher.react event files).outcome = .error failure)
    (observer : Observer) :
    Ends (watcher.handle observer event) files
      (if observer.isRelaying then
          .error (.stopped (.failed (.ofWriteError failure.error)))
        else .ok false)
      failure.files [] := by
  have changed := ends_change_of_error fails
  refine (changed.bind_error _).rescue ?_
  unfold goOn
  cases observer.isRelaying with
  | true => exact ends_throw _ failure.files
  | false => exact ends_pure false failure.files

theorem ends_await_cons
    {event : WatchEvent}
    {rest : List WatchEvent}
    {result : Except Disruption Unit}
    (reacts : (watcher.react event files).outcome = .ok next)
    (ends : Ends (watcher.await observer rest) next result left []) :
    Ends (watcher.await observer (event :: rest)) files result left [] :=
  (ends_handle_of_ok reacts).bind ends

theorem ends_depart
    (observer : Observer)
    (files : FileStore) :
    Ends observer.depart files observer.departure.result files [] := by
  unfold Observer.depart
  cases observer.departure with
  | dead => exact ends_pure () files
  | interrupted => exact ends_throw _ files
  | failed detail => exact ends_throw _ files

/-- Nothing is done with the observer while it is waited for. -/
theorem exists_ends_await
    (watcher : Watcher)
    (observer : Observer)
    (events : List WatchEvent)
    (files : FileStore) :
    ∃ result left, Ends (watcher.await observer events) files result left [] := by
  induction events generalizing files with
  | nil => exact ⟨_, _, ends_depart observer files⟩
  | cons event rest inductionHypothesis =>
      cases reacts : (watcher.react event files).outcome with
      | ok next =>
          obtain ⟨result, left, ends⟩ := inductionHypothesis next
          exact ⟨result, left, ends_await_cons reacts ends⟩
      | error failure =>
          have handled := ends_handle_of_error reacts observer
          cases relays : observer.isRelaying with
          | true =>
              rw [if_pos relays] at handled
              exact ⟨_, _, handled.bind_error _⟩
          | false =>
              rw [if_neg (by simp [relays])] at handled
              exact ⟨_, _, handled.bind (ends_pure () failure.files)⟩

/-- What remains of a disruption when it has been dealt with. -/
def settled : Except Disruption Unit → Except Stop Unit
  | .ok () => .ok ()
  | .error .interrupted => .ok ()
  | .error (.stopped stop) => .error stop

theorem ends_settle
    {wait : Watching Disruption Unit}
    {waited : Except Disruption Unit}
    (waits : Ends wait files waited left []) :
    Ends (wait.rescue Disruption.settle) files (settled waited) left [] := by
  refine waits.rescue ?_
  cases waited with
  | ok _ => exact ends_pure () left
  | error disruption =>
      cases disruption with
      | interrupted => exact ends_note _ _ left
      | stopped stop => exact ends_throw stop left

/-- An observer that cannot be started is neither stopped nor joined. -/
theorem ends_supervise_of_some
    {detail : String}
    (fails : (Observer.opening (Path.directory watcher.shader)).findSome?
      observer.faults = some detail)
    (shader : String)
    (files : FileStore) :
    Ends (watcher.supervise shader observer) files
      (.error (.failed (.observer detail))) files
      (observer.done (Observer.opening (Path.directory watcher.shader))) := by
  have opens := observer.ends_setUp (Path.directory watcher.shader) files
  rw [Observer.verdict, fails] at opens
  exact opens.bind_error _

/-- An observer that was started is stopped and joined, whatever ended the
wait. -/
theorem ends_supervise_of_none
    {waited : Except Disruption Unit}
    (works : (Observer.opening (Path.directory watcher.shader)).findSome?
      observer.faults = none)
    (waits : Ends (watcher.await observer observer.events) files waited left [])
    (shader : String) :
    Ends (watcher.supervise shader observer) files
      ((observer.verdict Observer.closing).bind fun _ => settled waited) left
      (Observer.opening (Path.directory watcher.shader) ++
        observer.done Observer.closing) := by
  have opens := observer.ends_setUp (Path.directory watcher.shader) files
  rw [Observer.verdict, works, Observer.done_of_none works] at opens
  exact opens.bind ((ends_note _ _ files).bind
    ((ends_settle waits).finally (observer.ends_tearDown left)))

end Watcher
end CommandLine
end ShaderLift
