import ShaderLift.CommandLine.Shader
import ShaderLift.Trace

/-!
# Watching a shader

The shader is converted once at the start and again at every event that names
its file.  A shader that cannot be read or converted is logged and leaves the
output as it is.  Then an observer is started.  However the wait for it ends,
it is stopped and joined; an observer that cannot be started is neither.
-/

namespace ShaderLift
namespace CommandLine

/-- What is watched, what it is converted to and where that goes. -/
structure Watcher where
  /-- The absolute path of the shader. -/
  shader : String
  output : String
  loaded : Dialect.Loaded
deriving Repr, DecidableEq

/-! ## Reactions -/

namespace Watcher

/-- Convert the shader and write the output if that succeeds. -/
def refresh
    (watcher : Watcher)
    (files : FileStore) : Attempt FileStore.WriteFailure FileStore := do
  let code ← Attempt.ofLogged
    (convertFile files watcher.shader watcher.loaded.dialect)
  match code with
  | none => pure files
  | some code => writeCode files code watcher.output watcher.loaded.surrogates

/-- The path names the watched shader. -/
def watches (watcher : Watcher) (root path : String) : Bool :=
  Path.absolute root path == watcher.shader

/-- React to one event. -/
def react
    (watcher : Watcher)
    (event : WatchEvent)
    (files : FileStore) : Attempt FileStore.WriteFailure FileStore :=
  match event with
  | .written place bytes => pure (files.addFile place bytes)
  | .removed place => pure (files.erase place)
  | .modified path =>
      if watcher.watches files.root path then do
        Attempt.note .info s!"Detected changes in {watcher.shader}"
        watcher.refresh files
      else pure files

end Watcher

/-! ## Watches -/

/-- A part of a watch: it logs, changes files, uses an observer and may stop
with an error.  The files that it leaves then stay. -/
abbrev Watching (ε α : Type) :=
  ExceptT ε (StateT FileStore (Traced ObserverAction)) α

namespace Watching

/-- Log one entry and go on. -/
def note (level : Level) (message : String) : Watching ε Unit :=
  ExceptT.lift (StateT.lift (Traced.ofLogged (Logged.write level message)))

/-- Make an attempt that depends on the files. -/
def attempt (action : FileStore → Attempt ε α) : Watching ε α :=
  ExceptT.mk fun files => do
    let result ← Traced.ofLogged (action files).run
    pure (result, files)

/-- Go on after an error, which may become another one. -/
def rescue
    (first : Watching ε α)
    (handler : ε → Watching δ α) : Watching δ α :=
  ExceptT.mk do
    match ← first.run with
    | .ok value => pure (.ok value)
    | .error problem => (handler problem).run

/-- Change the files. -/
def change (action : FileStore → Attempt FileStore.WriteFailure FileStore) :
    Watching Stop Unit :=
  rescue
    (do
      let changed ← attempt action
      set changed)
    fun failure => do
      set failure.files
      throw (.failed (.ofWriteError failure.error))

end Watching

/-- Do something with an observer. -/
def Observer.perform
    (observer : Observer)
    (action : ObserverAction) : Watching Stop Unit := do
  ExceptT.lift (StateT.lift (Traced.perform action))
  match observer.faults action with
  | none => pure ()
  | some detail => throw (.failed (.observer detail))

/-- Let an observer watch a directory. -/
def Observer.setUp
    (observer : Observer)
    (directory : String) : Watching Stop Unit := do
  observer.perform (.schedule directory false)
  observer.perform .start

/-- Let it watch no more. -/
def Observer.tearDown (observer : Observer) : Watching Stop Unit := do
  observer.perform .stop
  observer.perform .join

/-- What ends the wait for an observer while it is alive. -/
inductive Disruption
  /-- The user interrupts it. -/
  | interrupted
  | stopped (stop : Stop)
deriving Repr, DecidableEq

/-- An interruption is logged and is no error. -/
def Disruption.settle : Disruption → Watching Stop Unit
  | .interrupted =>
      Watching.note .info "Keyboard interrupt received, stopping..."
  | .stopped stop => throw stop

/-- The wait ends when nothing happens any more. -/
def Observer.depart (observer : Observer) : Watching Disruption Unit :=
  match observer.departure with
  | .dead => pure ()
  | .interrupted => throw .interrupted
  | .failed detail => throw (.stopped (.failed (.observer detail)))

namespace Watcher

/-- React to an event.  Tells whether the observer is still alive. -/
def handle
    (watcher : Watcher)
    (observer : Observer)
    (event : WatchEvent) : Watching Disruption Bool :=
  Watching.rescue
    (do
      Watching.change (watcher.react event)
      pure true)
    fun stop =>
      if observer.isRelaying then throw (.stopped stop) else pure false

/-- Wait while the observer is alive, and react to what happens. -/
def await
    (watcher : Watcher)
    (observer : Observer) : List WatchEvent → Watching Disruption Unit
  | [] => observer.depart
  | event :: rest => do
      if ← watcher.handle observer event then watcher.await observer rest
      else pure ()

/-- Start an observer and wait for it.  In the end it is stopped and joined,
whatever ended the wait. -/
def supervise
    (watcher : Watcher)
    (shader : String)
    (observer : Observer) : Watching Stop Unit := do
  observer.setUp (Path.directory watcher.shader)
  Watching.note .info s!"Watching {shader} (Ctrl+C to stop)..."
  try
    (watcher.await observer observer.events).rescue Disruption.settle
  finally
    observer.tearDown

end Watcher

/-! ## The command -/

/-- Load the dialect of a watch. -/
def beginWatch
    (shader output : String)
    (dialect : Option String)
    (reader : Yaml.Reader)
    (files : FileStore) : Attempt Stop Watcher := do
  let loaded ← dialectIn files dialect reader
  pure ⟨Path.absolute files.root shader, output, loaded⟩

/-- Load the dialect, convert the shader for the first time and watch it. -/
def watchOver
    (shader output : String)
    (dialect : Option String)
    (observer : Observer)
    (reader : Yaml.Reader) : Watching Stop Unit := do
  let watcher ← Watching.attempt (beginWatch shader output dialect reader)
  Watching.change watcher.refresh
  watcher.supervise shader observer

/-- Watch a shader. -/
def watch
    (files : FileStore)
    (shader output : String)
    (dialect : Option String)
    (observer : Observer)
    (reader : Yaml.Reader) : Logged Report :=
  let watched := (watchOver shader output dialect observer reader).run files
  ⟨{ ending := .ofResult watched.value.1, files := watched.value.2,
     observer := watched.deeds },
    watched.log⟩

end CommandLine
end ShaderLift
