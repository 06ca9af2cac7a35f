import ShaderLift.Chat.Model
import ShaderLift.CommandLine.Arguments
import ShaderLift.Examples.Bundle
import ShaderLift.Files.Path

/-!
# Commands

The command line names one of four commands.  A request for help goes before
missing and surplus arguments, but not before options that make no sense.
-/

namespace ShaderLift
namespace CommandLine

/-- What the chat command is asked to do. -/
structure ChatOrder where
  shader : String
  instruction : String
  model : String
  output : Option String
  history : Option String
  /-- The shader is converted before it is sent. -/
  convertsFirst : Bool
deriving Repr, DecidableEq

/-- What the program is asked to do. -/
inductive Command
  | convert (shader : String) (output dialect : Option String)
  | watch (shader output : String) (dialect : Option String)
  | examples (directory output : String) (dialect : Option String)
  | chat (order : ChatOrder)
deriving Repr, DecidableEq

/-- A command line that makes sense. -/
inductive Invocation
  | help
  | run (isVerbose : Bool) (command : Command)
deriving Repr, DecidableEq

/-- The option that asks for help. -/
def helpFlag : Flag :=
  { name := "help", takesValue := false }

/-- The option that lowers the level of the log. -/
def verboseFlag : Flag :=
  { name := "verbose", letter := some 'v', takesValue := false }

/-- The option that names a dialect. -/
def dialectFlag : Flag :=
  { name := "dialect", letter := some 'd' }

/-- The option that names an output file. -/
def outputFlag : Flag :=
  { name := "output", letter := some 'o' }

/-- The options of the chat command. -/
def chatFlags : List Flag :=
  [{ name := "model", letter := some 'm' }, outputFlag, { name := "history" },
    { name := "from-shadertoy", takesValue := false }]

/-- The environment variable that names a model. -/
def modelVariable : String :=
  "TOY2WEBGL_MODEL"

namespace Command

/-- The plain form of the path that an option names. -/
def path? (arguments : Arguments) (name : String) : Option String :=
  (arguments.value? name).map Path.plain

/-- The convert command. -/
def ofConvert (arguments : Arguments) : Except UsageError Command :=
  let dialect := path? arguments "dialect"
  match arguments.plain with
  | [] => .error (.missingArgument "SHADER_FILE")
  | [shader] => .ok (.convert shader none dialect)
  | [shader, output] => .ok (.convert shader (some (Path.plain output)) dialect)
  | _ :: _ :: extra => .error (.extraArguments extra)

/-- The watch command. -/
def ofWatch (arguments : Arguments) : Except UsageError Command :=
  let dialect := path? arguments "dialect"
  match arguments.plain with
  | [] => .error (.missingArgument "SHADER_FILE")
  | [_] => .error (.missingArgument "OUTPUT")
  | [shader, output] => .ok (.watch shader (Path.plain output) dialect)
  | _ :: _ :: extra => .error (.extraArguments extra)

/-- The examples command. -/
def ofExamples (arguments : Arguments) : Except UsageError Command :=
  let dialect := path? arguments "dialect"
  let output := (path? arguments "output").getD Examples.defaultReport
  match arguments.plain with
  | [] => .error (.missingArgument "EXAMPLES_DIR")
  | [directory] => .ok (.examples (Path.plain directory) output dialect)
  | _ :: extra => .error (.extraArguments extra)

/-- The chat command.  The model is the one that is named, else the one of
the environment, else the default. -/
def ofChat
    (environment : Chat.Environment)
    (arguments : Arguments) : Except UsageError Command :=
  let fallback := (environment.find? modelVariable).getD Chat.defaultModel
  match arguments.plain with
  | [] => .error (.missingArgument "SHADER_FILE")
  | [_] => .error (.missingArgument "INSTRUCTION")
  | [shader, instruction] =>
      .ok (.chat
        { shader := shader
          instruction := instruction
          model := (arguments.value? "model").getD fallback
          output := path? arguments "output"
          history := path? arguments "history"
          convertsFirst := arguments.has "from-shadertoy" })
  | _ :: _ :: extra => .error (.extraArguments extra)

/-- The files that a command may read or write. -/
def paths : Command → List String
  | .convert shader output dialect => shader :: output.toList ++ dialect.toList
  | .watch shader output dialect => shader :: output :: dialect.toList
  | .examples directory output dialect => directory :: output :: dialect.toList
  | .chat order => order.shader :: order.output.toList ++ order.history.toList

/-- The directories whose files a command may read. -/
def directories : Command → List String
  | .examples directory _ _ => [directory]
  | _ => []

/-- The options of a command and how it is read, by its name. -/
def find?
    (environment : Chat.Environment)
    (name : String) : Option (List Flag × (Arguments → Except UsageError Command)) :=
  match name with
  | "convert" => some ([dialectFlag], ofConvert)
  | "watch" => some ([dialectFlag], ofWatch)
  | "examples" => some ([outputFlag, dialectFlag], ofExamples)
  | "chat" => some (chatFlags, ofChat environment)
  | _ => none

end Command

namespace Invocation

/-- Read the arguments behind the name of a command. -/
def ofCommand
    (isVerbose : Bool)
    (flags : List Flag)
    (build : Arguments → Except UsageError Command)
    (rest : List String) : Except UsageError Invocation := do
  let arguments ← Arguments.read (helpFlag :: flags) true rest
  if arguments.has helpFlag.name then return .help
  let command ← build arguments
  return .run isVerbose command

/-- Read a command line. -/
def read
    (environment : Chat.Environment)
    (line : List String) : Except UsageError Invocation := do
  let general ← Arguments.read [helpFlag, verboseFlag] false line
  if general.has helpFlag.name then return .help
  match general.plain with
  | [] => throw .missingCommand
  | name :: rest =>
      match Command.find? environment name with
      | none => throw (.unknownCommand name)
      | some (flags, build) =>
          ofCommand (general.has verboseFlag.name) flags build rest

end Invocation
end CommandLine
end ShaderLift
