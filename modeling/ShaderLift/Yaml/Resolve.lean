import ShaderLift.Document.Value
import ShaderLift.Text.Base64
import ShaderLift.Yaml.Fault

/-!
# Scalars and their types

A plain scalar that looks like a truth value, a number, a date or nothing is
one; every other plain scalar is text.  The same rules give the value.
-/

namespace ShaderLift
namespace Yaml

open Document

/-- The type of a node. -/
inductive Tag
  | text
  | null
  | bool
  | integer
  | double
  | moment
  | binary
  /-- The key that merges other mappings. -/
  | merge
  /-- The key of a default value. -/
  | default
  | list
  | mapping
  | set
  /-- A list of pairs. -/
  | pairs
  /-- A type that is not known. -/
  | unknown
deriving Repr, DecidableEq

/-- The type with the given full name. -/
def Tag.ofName (name : List Char) : Tag :=
  match String.ofList name with
  | "tag:yaml.org,2002:str" => .text
  | "tag:yaml.org,2002:null" => .null
  | "tag:yaml.org,2002:bool" => .bool
  | "tag:yaml.org,2002:int" => .integer
  | "tag:yaml.org,2002:float" => .double
  | "tag:yaml.org,2002:timestamp" => .moment
  | "tag:yaml.org,2002:binary" => .binary
  | "tag:yaml.org,2002:merge" => .merge
  | "tag:yaml.org,2002:value" => .default
  | "tag:yaml.org,2002:seq" => .list
  | "tag:yaml.org,2002:map" => .mapping
  | "tag:yaml.org,2002:set" => .set
  | "tag:yaml.org,2002:omap" => .pairs
  | "tag:yaml.org,2002:pairs" => .pairs
  | _ => .unknown

/-! ## Words -/

/-- The words for truth values, in lower case. -/
def boolWords : List (String × Bool) :=
  [("yes", true), ("no", false), ("true", true), ("false", false),
    ("on", true), ("off", false)]

/-- The lower-case, capitalised and upper-case forms of a word. -/
def wordForms (word : String) : List String :=
  [word, word.capitalize, word.map Char.toUpper]

/-- The text is a word for a truth value. -/
def isBool (text : List Char) : Bool :=
  boolWords.any fun word => (wordForms word.1).contains (String.ofList text)

/-- The text stands for nothing. -/
def isNull (text : List Char) : Bool :=
  ["", "~", "null", "Null", "NULL"].contains (String.ofList text)

/-! ## Numbers -/

/-- Split a sign off a text: whether it is negative, and the rest. -/
def splitSign (text : List Char) : Bool × List Char :=
  match text with
  | '-' :: rest => (true, rest)
  | '+' :: rest => (false, rest)
  | rest => (false, rest)

/-- A digit below the base, or an underscore. -/
def isDigitBelow (base : Nat) (c : Char) : Bool :=
  c == '_' ||
    (if c.isDigit then c.toNat - 48 < base
    else base == 16 && (('a' ≤ c && c ≤ 'f') || ('A' ≤ c && c ≤ 'F')))

/-- Digits and underscores, at least one. -/
def areDigits (base : Nat) (text : List Char) : Bool :=
  !text.isEmpty && text.all (isDigitBelow base)

/-- A digit, then digits and underscores. -/
def isDigitRun (text : List Char) : Bool :=
  text.head?.any Char.isDigit && areDigits 10 text

/-- Minutes or seconds: a number below sixty of one or two digits. -/
def isSixtieth (text : List Char) : Bool :=
  match text with
  | [c] => c.isDigit
  | [tens, c] => '0' ≤ tens && tens ≤ '5' && c.isDigit
  | _ => false

/-- The parts of a text between colons. -/
def colonParts : List Char → List (List Char)
  | [] => [[]]
  | c :: rest =>
      if c = ':' then [] :: colonParts rest
      else
        match colonParts rest with
        | [] => [[c]]
        | part :: more => (c :: part) :: more

/-- The text is a number without a fraction. -/
def isInteger (text : List Char) : Bool :=
  match (splitSign text).2 with
  | ['0'] => true
  | '0' :: 'b' :: digits => areDigits 2 digits
  | '0' :: 'x' :: digits => areDigits 16 digits
  | '0' :: digits => areDigits 8 digits
  | body =>
      match colonParts body with
      | [] => false
      | first :: more =>
          isDigitRun first && first.head? != some '0' && more.all isSixtieth

/-- The text is an exponent: a letter, a sign and digits. -/
def isExponent (text : List Char) : Bool :=
  match text with
  | 'e' :: sign :: digits =>
      (sign == '-' || sign == '+') && !digits.isEmpty && digits.all Char.isDigit
  | 'E' :: sign :: digits =>
      (sign == '-' || sign == '+') && !digits.isEmpty && digits.all Char.isDigit
  | _ => false

/-- The text is a fraction behind its point, perhaps with an exponent. -/
def isFraction (text : List Char) : Bool :=
  let rest := text.dropWhile (isDigitBelow 10)
  rest.isEmpty || isExponent rest

/-- The text is a number with a fraction, or infinite, or no number. -/
def isDouble (text : List Char) : Bool :=
  let body := (splitSign text).2
  let special (words : List String) : Bool :=
    words.contains (String.ofList body)
  let whole := body.takeWhile (· != '.')
  match body.dropWhile (· != '.') with
  | [] => false
  | _ :: fraction =>
      special [".inf", ".Inf", ".INF"] ||
        (text == body && special [".nan", ".NaN", ".NAN"]) ||
        (text == body && whole.isEmpty &&
          fraction.head?.any Char.isDigit && isFraction fraction) ||
        (isDigitRun whole && isFraction fraction) ||
        match colonParts whole with
        | first :: second :: more =>
            isDigitRun first && (second :: more).all isSixtieth &&
              fraction.all (isDigitBelow 10)
        | _ => false

/-! ## Moments -/

/-- Take between `least` and `most` digits. -/
def takeDigits
    (least most : Nat)
    (text : List Char) : Option (Nat × List Char) :=
  let digits := (text.take most).takeWhile Char.isDigit
  if digits.length < least then none
  else
    some (Text.ofDigits 10 (digits.map fun c => c.toNat - 48),
      text.drop digits.length)

/-- Take an exact character. -/
def takeChar (wanted : Char) (text : List Char) : Option (List Char) :=
  match text with
  | [] => none
  | c :: rest => if c = wanted then some rest else none

/-- The fields of a date or a moment, not checked against the calendar. -/
structure MomentFields where
  year : Nat
  month : Nat
  day : Nat
  /-- Hour, minute and second, if there is a time. -/
  time : Option (Nat × Nat × Nat) := none
  /-- Digits of the fraction of a second. -/
  fraction : List Char := []
  /-- The offset of the clock in minutes. -/
  offset : Option Int := none
deriving Repr, DecidableEq

/-- Read the offset that closes a moment. -/
def readOffset (text : List Char) : Option (Option Int) :=
  match text.dropWhile (fun c => c == ' ' || c == '\t') with
  | ['Z'] => some (some 0)
  | sign :: rest =>
      if sign == '-' || sign == '+' then do
        let (hours, rest) ← takeDigits 1 2 rest
        let minutes ←
          match rest with
          | [] => some 0
          | _ => do
              let rest ← takeChar ':' rest
              let (minutes, rest) ← takeDigits 2 2 rest
              if rest.isEmpty then some minutes else none
        let offset : Int := (60 * hours + minutes : Nat)
        some (some (if sign == '-' then -offset else offset))
      else none
  | [] => if text.isEmpty then some none else none

/-- Read a time of day behind its separator. -/
def readTime (date : MomentFields) (text : List Char) : Option MomentFields := do
  let (hour, rest) ← takeDigits 1 2 text
  let rest ← takeChar ':' rest
  let (minute, rest) ← takeDigits 2 2 rest
  let rest ← takeChar ':' rest
  let (second, rest) ← takeDigits 2 2 rest
  let (fraction, rest) : List Char × List Char :=
    match rest with
    | '.' :: more => (more.takeWhile Char.isDigit, more.dropWhile Char.isDigit)
    | _ => ([], rest)
  let offset ← readOffset rest
  some { date with time := some (hour, minute, second), fraction, offset }

/-- Read a date, or a date and a time. -/
def momentFields? (text : List Char) : Option MomentFields := do
  let (year, rest) ← takeDigits 4 4 text
  let rest ← takeChar '-' rest
  let (month, behindMonth) ← takeDigits 1 2 rest
  let rest ← takeChar '-' behindMonth
  let (day, rest) ← takeDigits 1 2 rest
  let date : MomentFields := { year, month, day }
  match rest with
  | [] => some date
  | c :: behind =>
      if c = 'T' || c = 't' then readTime date behind
      else if c = ' ' || c = '\t' then
        readTime date (behind.dropWhile (fun d => d == ' ' || d == '\t'))
      else none

/-- The text looks like a date or a moment.  A date that stands alone has two
digits for month and day. -/
def isMoment (text : List Char) : Bool :=
  (momentFields? text).any fun fields =>
    fields.time.isSome || text.length == 10

/-! ## Types and values -/

/-- The type of a plain scalar. -/
def resolvePlain (text : List Char) : Tag :=
  if isBool text then .bool
  else if isDouble text then .double
  else if isInteger text then .integer
  else if text = ['<', '<'] then .merge
  else if isNull text then .null
  else if isMoment text then .moment
  else if text = ['='] then .default
  else .text

/-- Read digits in a base other than ten. -/
def readBased (base : Nat) (digits : List Char) : Except Fault Nat :=
  let value? (c : Char) : Option Nat :=
    if c.isDigit then some (c.toNat - 48)
    else if 'a' ≤ c && c ≤ 'f' then some (c.toNat - 87)
    else if 'A' ≤ c && c ≤ 'F' then some (c.toNat - 55)
    else none
  match digits.mapM fun c => (value? c).filter (· < base) with
  | some values =>
      if values.isEmpty then .error (.integer (.invalid base ""))
      else .ok (Text.ofDigits base values)
  | none => .error (.integer (.invalid base (String.ofList digits)))

/-- Read an integer in decimal notation. -/
def readDecimal (digits : List Char) : Except Fault Int :=
  match Text.readInteger digits with
  | .ok number => .ok number
  | .error error => .error (.integer error)

/-- The value of an integer. -/
def readInteger (text : List Char) : Except Fault Int := do
  let (negative, body) := splitSign (text.filter (· != '_'))
  let magnitude : Int ←
    match body with
    | [] => throw .noNumber
    | ['0'] => pure 0
    | '0' :: 'b' :: digits => do pure (Int.ofNat (← readBased 2 digits))
    | '0' :: 'x' :: digits => do pure (Int.ofNat (← readBased 16 digits))
    | '0' :: _ => do pure (Int.ofNat (← readBased 8 body))
    | _ => do
        let parts ← (colonParts body).mapM readDecimal
        pure (parts.foldl (fun number part => 60 * number + part) 0)
  pure (if negative then -magnitude else magnitude)

/-- Read a decimal with a point and an exponent that may both be missing. -/
def readUnsigned (text : List Char) : Option Double := do
  let whole := text.takeWhile Char.isDigit
  let rest := text.dropWhile Char.isDigit
  let (fraction, rest) : List Char × List Char :=
    match rest with
    | '.' :: more => (more.takeWhile Char.isDigit, more.dropWhile Char.isDigit)
    | _ => ([], rest)
  if whole.isEmpty && fraction.isEmpty then none
  let exponent : Int ←
    match rest with
    | [] => some 0
    | mark :: digits =>
        if mark = 'e' || mark = 'E' then
          let (negative, digits) := splitSign digits
          if digits.isEmpty || !digits.all Char.isDigit then none
          else
            let number : Int :=
              Text.ofDigits 10 (digits.map fun c => c.toNat - 48)
            some (if negative then -number else number)
        else none
  let digits := Text.ofDigits 10 ((whole ++ fraction).map fun c => c.toNat - 48)
  some (Double.ofDecimal digits (exponent - fraction.length))

/-- Read one part of a number in base sixty. -/
def readPart (text : List Char) : Except Fault Double :=
  match readUnsigned (Text.trim text) with
  | some number => .ok number
  | none => .error (.notDouble (String.ofList text))

/-- The value of digits in base sixty, the last of which may have a
fraction. -/
def sumSixtieths (parts : List Double) : Double :=
  (parts.reverse.foldl
    (fun (sum, base) part =>
      (Double.addPositive sum
        (Double.mulPositive part (Double.nearest base 1)), base * 60))
    (Double.nearest 0 1, 1)).1

/-- The value of a number with a fraction. -/
def readDouble (text : List Char) : Except Fault Double := do
  let bare := (text.filter (· != '_')).map Char.toLower
  if bare.isEmpty then throw .noNumber
  let (negative, body) := splitSign bare
  if body = ".inf".toList then pure (.infinite negative)
  else if body = ".nan".toList then pure .notNumber
  else
    match ← (colonParts body).mapM readPart with
    | [part] => pure (part.withSign negative)
    | parts => pure ((sumSixtieths parts).withSign negative)

/-- The value of a truth value. -/
def readBool (text : List Char) : Except Fault Bool :=
  let word := String.ofList (text.map Char.toLower)
  match boolWords.find? (fun known => known.1 == word) with
  | some (_, value) => .ok value
  | none => .error (.notBool word)

/-- Six digits of the fraction of a second. -/
def microseconds (fraction : List Char) : Nat :=
  let digits := fraction.take 6
  Text.ofDigits 10
    ((digits ++ List.replicate (6 - digits.length) '0').map
      fun c => c.toNat - 48)

/-- The value of a date or a moment. -/
def readMoment (text : List Char) : Except Fault Value :=
  match momentFields? text with
  | none => .error .notMoment
  | some fields =>
      match fields.time with
      | none =>
          match Date.make fields.year fields.month fields.day with
          | .ok date => .ok (.date date)
          | .error error => .error (.calendar error)
      | some (hour, minute, second) =>
          match Moment.make fields.year fields.month fields.day hour minute
              second (microseconds fields.fraction) fields.offset with
          | .ok moment => .ok (.moment moment)
          | .error error => .error (.calendar error)

/-- The value of bytes. -/
def readBinary (text : List Char) : Except Fault (List UInt8) :=
  if text.all (fun c => c.toNat < 0x80) then
    match Base64.decode text with
    | some bytes => .ok bytes
    | none => .error .malformed
  else .error .malformed

/-- The value of a scalar of a type. -/
def readScalar (tag : Tag) (text : List Char) : Except Fault Value := do
  match tag with
  | .text => pure (.text (String.ofList text))
  | .null => pure .null
  | .bool => pure (.bool (← readBool text))
  | .integer => pure (.integer (← readInteger text))
  | .double => pure (.double (← readDouble text))
  | .moment => readMoment text
  | .binary => pure (.bytes (← readBinary text))
  | _ => throw .malformed

end Yaml
end ShaderLift
