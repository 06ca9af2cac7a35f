import ShaderLift.Text.Blank
import ShaderLift.Text.Character
import ShaderLift.Text.Quoted

/-!
# Integers as text

Reading an integer in decimal notation: blanks around it, a sign, decimal
digits of any script, and single underscores between digits.  Numbers of more
than 4300 digits are refused, in both directions.
-/

namespace ShaderLift
namespace Text

/-- The most digits that a number may have when it is read or written in
decimal notation. -/
def digitLimit : Nat :=
  4300

/-- The values of digits with single underscores between them. -/
def separatedDigits (digit? : Char → Option Nat) :
    List Char → Option (List Nat)
  | [] => none
  | [c] => (digit? c).map ([·])
  | c :: '_' :: cs => do
      let digit ← digit? c
      let rest ← separatedDigits digit? cs
      pure (digit :: rest)
  | c :: cs => do
      let digit ← digit? c
      let rest ← separatedDigits digit? cs
      pure (digit :: rest)

/-- The number with the given digits, the highest first. -/
def ofDigits (base : Nat) (digits : List Nat) : Nat :=
  digits.foldl (fun number digit => number * base + digit) 0

/-- Why a text is not read as an integer. -/
inductive IntegerError
  /-- The text is not a number in the given base. -/
  | invalid (base : Nat) (text : String)
  /-- The number has too many digits. -/
  | tooLong (digits : Nat)
deriving Repr, DecidableEq

/-- The wording of an error. -/
def IntegerError.message : IntegerError → String
  | .invalid base text =>
      s!"invalid literal for int() with base {base}: {quoted text}"
  | .tooLong digits =>
      s!"Exceeds the limit ({digitLimit} digits) for integer string " ++
        s!"conversion: value has {digits} digits; use " ++
        "sys.set_int_max_str_digits() to increase the limit"

/-- Read an integer in decimal notation. -/
def readInteger (text : List Char) : Except IntegerError Int :=
  let (negative, digits) : Bool × List Char :=
    match trim text with
    | '-' :: rest => (true, rest)
    | '+' :: rest => (false, rest)
    | rest => (false, rest)
  match separatedDigits decimalValue? digits with
  | none => .error (.invalid 10 (String.ofList text))
  | some values =>
      if digitLimit < values.length then .error (.tooLong values.length)
      else
        let number : Int := ofDigits 10 values
        .ok (if negative then -number else number)

end Text
end ShaderLift
