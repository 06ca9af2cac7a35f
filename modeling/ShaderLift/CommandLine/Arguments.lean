import ShaderLift.Text.Affix

/-!
# Arguments

Options start with a dash and may stand between other arguments.  A long
option takes its value from behind an equals sign or from the next argument; a
short one takes what follows its letter or the next argument, and short options
without a value may share one dash.  Two dashes alone end the options.
-/

namespace ShaderLift
namespace CommandLine

/-- An option of a command. -/
structure Flag where
  /-- The long name without its dashes. -/
  name : String
  /-- The letter of the short form, if there is one. -/
  letter : Option Char := none
  takesValue : Bool := true
deriving Repr, DecidableEq

/-- An option that was given. -/
structure Given where
  name : String
  value : Option String := none
deriving Repr, DecidableEq

/-- Why arguments make no sense. -/
inductive UsageError
  | unknownOption (name : String)
  | missingValue (name : String)
  | unexpectedValue (name : String)
  | missingArgument (name : String)
  | extraArguments (arguments : List String)
  | missingCommand
  | unknownCommand (name : String)
deriving Repr, DecidableEq

/-- The wording of an error. -/
def UsageError.message : UsageError → String
  | .unknownOption name => s!"No such option: {name}"
  | .missingValue name => s!"Option '{name}' requires an argument."
  | .unexpectedValue name => s!"Option '{name}' does not take a value."
  | .missingArgument name => s!"Missing argument '{name}'."
  | .extraArguments arguments =>
      "Got unexpected extra arguments " ++ String.intercalate " " arguments
  | .missingCommand => "Missing command."
  | .unknownCommand name => s!"No such command '{name}'."

/-- The options that were given and the arguments that are none. -/
structure Arguments where
  given : List Given := []
  plain : List String := []
deriving Repr, DecidableEq

namespace Arguments

/-- The option was given. -/
def has (arguments : Arguments) (name : String) : Bool :=
  arguments.given.any fun option => option.name == name

/-- The value of an option; the last one that was given counts. -/
def value? (arguments : Arguments) (name : String) : Option String :=
  (arguments.given.reverse.find? fun option => option.name == name).bind
    Given.value

/-- The argument names options rather than standing for itself. -/
def isOption (argument : String) : Bool :=
  Text.startsWith argument "-" && argument != "-"

/-- Options that were read, and the option that still needs its value. -/
abbrev Pending :=
  List Given × Option Flag

/-- Read letters that share one dash. -/
def readLetters (flags : List Flag) : List Char → Except UsageError Pending
  | [] => .ok ([], none)
  | letter :: rest =>
      match flags.find? fun flag => flag.letter == some letter with
      | none => .error (.unknownOption (String.ofList ['-', letter]))
      | some flag =>
          if flag.takesValue then
            if rest.isEmpty then .ok ([], some flag)
            else .ok ([⟨flag.name, some (String.ofList rest)⟩], none)
          else
            match readLetters flags rest with
            | .error error => .error error
            | .ok (others, pending) => .ok (⟨flag.name, none⟩ :: others, pending)

/-- Read a long option with the value behind its equals sign. -/
def readLong (flag : Flag) (value : Option String) : Except UsageError Pending :=
  match flag.takesValue, value with
  | true, none => .ok ([], some flag)
  | true, some text => .ok ([⟨flag.name, some text⟩], none)
  | false, none => .ok ([⟨flag.name, none⟩], none)
  | false, some _ => .error (.unexpectedValue flag.name)

/-- Read an argument that names options. -/
def readOption
    (flags : List Flag)
    (argument : List Char) : Except UsageError Pending :=
  let label := argument.takeWhile (· != '=')
  let value :=
    match argument.dropWhile (· != '=') with
    | [] => none
    | _ :: text => some (String.ofList text)
  match flags.find? fun flag => "--".toList ++ flag.name.toList == label with
  | some flag => readLong flag value
  | none =>
      if "--".toList.isPrefixOf argument then
        .error (.unknownOption (String.ofList label))
      else readLetters flags (argument.drop 1)

/-- Read arguments.  Where `mixed` is false the first argument that is no
option ends the options. -/
def read
    (flags : List Flag)
    (mixed : Bool) : List String → Except UsageError Arguments
  | [] => .ok {}
  | argument :: rest =>
      if argument = "--" then .ok { plain := rest }
      else if isOption argument then
        match readOption flags argument.toList with
        | .error error => .error error
        | .ok (found, none) =>
            match read flags mixed rest with
            | .error error => .error error
            | .ok others => .ok { others with given := found ++ others.given }
        | .ok (found, some flag) =>
            match rest with
            | [] => .error (.missingValue flag.name)
            | value :: rest =>
                match read flags mixed rest with
                | .error error => .error error
                | .ok others =>
                    .ok { others with
                      given := found ++ ⟨flag.name, some value⟩ :: others.given }
      else if mixed then
        match read flags mixed rest with
        | .error error => .error error
        | .ok others => .ok { others with plain := argument :: others.plain }
      else .ok { plain := argument :: rest }

end Arguments
end CommandLine
end ShaderLift
