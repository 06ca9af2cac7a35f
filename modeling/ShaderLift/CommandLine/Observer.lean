import ShaderLift.Files.Store

/-!
# Observers

An observer tells a watch which files of a directory are modified.  What a
watch meets is described from outside: which uses of the observer fail, what
happens while it is alive, and how the wait for it ends.
-/

namespace ShaderLift
namespace CommandLine

/-- What happens while a shader is watched. -/
inductive WatchEvent
  /-- Somebody writes a file. -/
  | written (place : FilePlace) (bytes : List UInt8)
  /-- Somebody removes a file. -/
  | removed (place : FilePlace)
  /-- The observer tells that a file was modified. -/
  | modified (path : String)
deriving Repr, DecidableEq

/-- What is done with an observer of a directory. -/
inductive ObserverAction
  | schedule (directory : String) (recursive : Bool)
  | start
  | stop
  | join
deriving Repr, DecidableEq

/-- How the wait for an observer ends when nothing happens any more. -/
inductive Departure
  /-- The observer is found dead. -/
  | dead
  /-- The user interrupts the wait. -/
  | interrupted
  /-- The wait fails. -/
  | failed (detail : String)
deriving Repr, DecidableEq

/-- An observer as a watch meets it. -/
structure Observer where
  /-- Why something cannot be done with the observer, where that is so. -/
  faults : ObserverAction → Option String := fun _ => none
  /-- What happens in the course of the watch.  Each time the observer is found
  alive one thing has happened. -/
  events : List WatchEvent := []
  departure : Departure := .dead
  /-- A reaction that fails does so where the wait is.  If not, it fails in the
  observer, which dies of it. -/
  isRelaying : Bool := false

end CommandLine
end ShaderLift
