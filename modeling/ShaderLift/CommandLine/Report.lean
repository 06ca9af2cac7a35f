import ShaderLift.Chat.Call
import ShaderLift.CommandLine.Arguments
import ShaderLift.CommandLine.Observer
import ShaderLift.Dialect.File
import ShaderLift.Examples.Bundle

/-!
# Reports of a run

A run ends well, with a problem that it logged, with a failure that nobody
expected, or before it starts because the command line makes no sense.  The
report also holds what was printed, the files after the run, and, where they
were involved, the requests to a vendor and the use of an observer.
-/

namespace ShaderLift
namespace CommandLine

/-- A failure that ends the program without being logged. -/
inductive Failure
  /-- A file cannot be written. -/
  | file (error : FileError)
  /-- A text that is to be written or printed has no bytes. -/
  | text (error : Text.EncodeError)
  /-- A dialect file is no text, or something in it has no value or no order. -/
  | dialect (error : Dialect.LoadError)
  /-- A transcript file holds a scalar that has no value. -/
  | transcript (cause : Yaml.Fault)
  /-- The name of an example has no key. -/
  | name (error : Text.IntegerError)
  /-- A call, or the making of a client, failed in a way that is no error. -/
  | crash (detail : String)
  /-- Something could not be done with an observer, or the wait for it failed. -/
  | observer (detail : String)
deriving Repr, DecidableEq

/-- The wording of a failure. -/
def Failure.message : Failure → String
  | .file error => error.message
  | .text error => error.message
  | .dialect error => error.message
  | .transcript cause => cause.message
  | .name error => error.message
  | .crash detail => detail
  | .observer detail => detail

/-- The failure to write a text. -/
def Failure.ofWriteError : FileStore.WriteError → Failure
  | .file error => .file error
  | .text error => .text error

/-- Why a command stops early. -/
inductive Stop
  /-- The problem is in the log. -/
  | logged
  | failed (failure : Failure)
deriving Repr, DecidableEq

/-- How a run ends. -/
inductive Ending
  | done
  | stopped (stop : Stop)
  | misused (error : UsageError)
deriving Repr, DecidableEq

/-- A run ends well unless something stops it. -/
def Ending.ofResult : Except Stop Unit → Ending
  | .ok () => .done
  | .error stop => .stopped stop

/-- What the program tells its caller. -/
def Ending.exitCode : Ending → Nat
  | .done => 0
  | .stopped _ => 1
  | .misused _ => 2

/-- What a run did. -/
structure Report where
  ending : Ending := .done
  printed : String := ""
  files : FileStore
  /-- The requests that were sent, once there is a client to send them. -/
  requests : Option (List Chat.Request) := none
  /-- What was done with an observer, in order. -/
  observer : List ObserverAction := []
deriving Repr, DecidableEq

namespace Report

/-- A run that stopped and left the files as they are. -/
def stopped (stop : Stop) (files : FileStore) : Report :=
  { ending := .stopped stop, files := files }

/-- A run that failed and left the files as they are. -/
def failed (failure : Failure) (files : FileStore) : Report :=
  stopped (.failed failure) files

end Report
end CommandLine
end ShaderLift
