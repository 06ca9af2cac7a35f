import ShaderLift.CommandLine.Run
import Std.Time.DateTime

/-!
# The program

The program looks up the files that its command line names, runs the command
on what it found, and carries out the report: it writes files, prints text and
shows the log.  A watched shader is looked up twice a second.
-/

namespace ShaderLift
namespace Program

open CommandLine

/-- What the file system holds at a path. -/
def look (path : String) : IO (Option FileEntry) := do
  try
    let place ← IO.FS.realPath path
    if ← place.isDir then return some .directory
    return some (.file (← IO.FS.readBinFile path).toList)
  catch _ => return none

/-- Add what stands along a path to a store. -/
def survey (store : FileStore) (path : String) : IO FileStore := do
  let (origin, parts) := store.start path
  let mut known := store
  let mut place := origin
  for part in parts do
    place := known.step place part
    if (known.get? place).isNone then
      match ← look (FileStore.pathOf place) with
      | some entry => known := known.set place entry
      | none => break
  return known

/-- Add what stands in a directory to a store. -/
def surveyDirectory (store : FileStore) (directory : String) : IO FileStore := do
  let mut known := store
  try
    let place ← IO.FS.realPath directory
    for entry in ← place.readDir do
      known ← survey known (Path.child directory entry.fileName)
  catch _ => pure ()
  return known

/-- The files that a command may use. -/
def surveyCommand (store : FileStore) (command : Command) : IO FileStore := do
  let mut known := store
  for path in command.paths do
    known ← survey known (Path.plain path)
  for directory in command.directories do
    known ← surveyDirectory known directory
  return known

/-- The environment variables that the program reads. -/
def readEnvironment : IO Chat.Environment := do
  let mut found := []
  for name in [modelVariable, Chat.Vendor.openAI.keyName,
      Chat.Vendor.anthropic.keyName] do
    if let some value ← IO.getEnv name then
      found := found ++ [(name, value)]
  return found

/-- The time of the clock. -/
def readClock : IO Moment := do
  let stamp ← Std.Time.Timestamp.now
  let ⟨date, time⟩ := Std.Time.PlainDateTime.ofWallTime
    (.ofNanoseconds stamp.toNanosecondsSinceUnixEpoch)
  return {
    date := ⟨date.year.toInt.toNat, date.month.toNat, date.day.toNat⟩
    hour := time.hour.toNat
    minute := time.minute.toNat
    second := time.second.val.toNat
    microsecond := time.nanosecond.toNat / 1000
    offset := some 0 }

/-- Show the log. -/
def showLog (log : List Entry) : IO Unit := do
  for entry in log do
    IO.eprintln s!"{entry.level.name}: {entry.message}"

/-- Write the files that changed. -/
def writeChanges (before after : FileStore) : IO Unit := do
  for (path, bytes) in before.changes after do
    IO.FS.writeBinFile path ⟨bytes.toArray⟩

/-- Tell how a run ended. -/
def conclude (ending : Ending) : IO UInt32 := do
  match ending with
  | .done => pure ()
  | .stopped .logged => pure ()
  | .stopped (.failed failure) => IO.eprintln failure.message
  | .misused error => IO.eprintln s!"Error: {error.message}"
  return ending.exitCode.toUInt32

/-- Carry out a change of files that a watch made.  The result holds the files
and the failure. -/
def carryOut
    (isVerbose : Bool)
    (files : FileStore)
    (attempt : Attempt FileStore.WriteFailure FileStore) :
    IO (FileStore × Option Failure) := do
  showLog (shown isVerbose attempt.run.log)
  match attempt.run.value with
  | .ok changed =>
      writeChanges files changed
      return (changed, none)
  | .error failure =>
      writeChanges files failure.files
      return (failure.files, some (.ofWriteError failure.error))

/-- Look up a watched shader again and again, and react to what changed. -/
partial def watchOn (isVerbose : Bool) (watcher : Watcher) (files : FileStore) :
    IO UInt32 := do
  IO.sleep 500
  match files.locate watcher.shader with
  | .error _ => watchOn isVerbose watcher files
  | .ok place =>
      match ← look watcher.shader with
      | some (.file bytes) =>
          if files.get? place == some (.file bytes) then
            watchOn isVerbose watcher files
          else
            let seen := files.set place (.file bytes)
            let reaction := watcher.react (.modified watcher.shader) seen
            match ← carryOut isVerbose seen reaction with
            | (_, some failure) => conclude (.stopped (.failed failure))
            | (changed, none) => watchOn isVerbose watcher changed
      | _ => watchOn isVerbose watcher (files.erase place)

/-- Convert a shader now and whenever its file changes. -/
def watchShader
    (isVerbose : Bool)
    (files : FileStore)
    (shader output : String)
    (dialect : Option String) : IO UInt32 := do
  let begun := (beginWatch shader output dialect Yaml.parse files).run
  showLog (shown isVerbose begun.log)
  match begun.value with
  | .error stop => conclude (.stopped stop)
  | .ok watcher =>
      match ← carryOut isVerbose files (watcher.refresh files) with
      | (_, some failure) => conclude (.stopped (.failed failure))
      | (started, none) =>
          showLog [⟨.info, s!"Watching {shader} (Ctrl+C to stop)..."⟩]
          watchOn isVerbose watcher started

/-- How the program is used. -/
def usage : String :=
  String.intercalate "\n"
    ["Usage: [-v] COMMAND [ARGS]...",
      "",
      "  convert SHADER_FILE [OUTPUT] [-d DIALECT]",
      "  watch SHADER_FILE OUTPUT [-d DIALECT]",
      "  examples EXAMPLES_DIR [-o OUTPUT] [-d DIALECT]",
      "  chat SHADER_FILE INSTRUCTION [-m MODEL] [-o OUTPUT] [--history FILE]",
      "      [--from-shadertoy]"]

/-- Run a command line.  No vendor can be reached from here. -/
def runLine (line : List String) : IO UInt32 := do
  let environment ← readEnvironment
  let empty : FileStore := { root := (← IO.currentDir).toString }
  let invocation := Invocation.read environment line
  let files ←
    match invocation with
    | .ok (.run _ command) => surveyCommand empty command
    | _ => pure empty
  match invocation with
  | .ok .help =>
      IO.println usage
      return 0
  | .ok (.run isVerbose (.watch shader output dialect)) =>
      watchShader isVerbose files shader output dialect
  | _ =>
      let surroundings : Surroundings :=
        { environment := environment
          files := files
          now := ← readClock
          channel := fun _ => .disconnected "Connection error." }
      let result := run surroundings line
      showLog result.log
      writeChanges files result.value.files
      IO.print result.value.printed
      conclude result.value.ending

end Program
end ShaderLift

/-- The entry point of the program. -/
def main (arguments : List String) : IO UInt32 :=
  ShaderLift.Program.runLine arguments
