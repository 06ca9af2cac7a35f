import ShaderLift.Text.Integer

/-!
# Natural keys

Names with numbers in them are ordered as people count: text by its
characters, numbers by their value.  The key of a name holds the text before
its first number, and every number with the text behind it, so that a number is
never compared with a text.
-/

namespace ShaderLift
namespace Examples

open Text

/-- A name cut at its digit runs: the text before the first one, then every
run with the text behind it. -/
def runs : List Char → List Char × List (List Char × List Char)
  | [] => ([], [])
  | c :: rest =>
      match runs rest with
      | (text, more) =>
          if isDecimal c then
            match text, more with
            | [], (digits, after) :: others => ([], (c :: digits, after) :: others)
            | text, more => ([], ([c], text) :: more)
          else (c :: text, more)

/-- What a name is ordered by. -/
structure NaturalKey where
  /-- The text before the first number. -/
  head : List Char
  /-- The numbers, each with the text behind it. -/
  tail : List (Nat × List Char)
deriving Repr, DecidableEq

namespace NaturalKey

/-- Text between numbers.  A text of nothing but digits that no number is
written with is refused. -/
def checkText (text : List Char) : Except IntegerError (List Char) :=
  if !text.isEmpty && text.all isAnyDigit then
    match readInteger text with
    | .error error => .error error
    | .ok _ => .ok text
  else .ok text

/-- The numbers of a key and the texts behind them. -/
def readTail :
    List (List Char × List Char) → Except IntegerError (List (Nat × List Char))
  | [] => .ok []
  | (digits, text) :: rest => do
      let number ← readInteger digits
      let text ← checkText text
      let others ← readTail rest
      pure ((number.toNat, text) :: others)

/-- The key of a name. -/
def ofName (name : List Char) : Except IntegerError NaturalKey := do
  let head ← checkText (runs name).1
  let tail ← readTail (runs name).2
  pure ⟨head, tail⟩

/-- A number and its text come before another number and text. -/
def pairPrecedes (left right : Nat × List Char) : Bool :=
  decide (left.1 < right.1) ||
    (left.1 == right.1 && decide (left.2 < right.2))

/-- A key comes before another one. -/
def precedes (left right : NaturalKey) : Bool :=
  decide (left.head < right.head) ||
    (left.head == right.head && List.lex left.tail right.tail pairPrecedes)

end NaturalKey

/-- Names with their keys. -/
def withKeys : List String → Except IntegerError (List (NaturalKey × String))
  | [] => .ok []
  | name :: rest => do
      let key ← NaturalKey.ofName name.toList
      let others ← withKeys rest
      pure ((key, name) :: others)

/-- Names in natural order. -/
def naturalSort (names : List String) : Except IntegerError (List String) := do
  let keyed ← withKeys names
  let sorted := keyed.mergeSort fun left right => !right.1.precedes left.1
  pure (sorted.map Prod.snd)

end Examples
end ShaderLift
