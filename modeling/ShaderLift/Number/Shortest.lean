import ShaderLift.Number.Double

/-!
# The shortest decimal that reads back

A finite number is written with the fewest digits that are read back as the
same number.  For one, two, up to seventeen digits, the two neighbours of the
number on that decimal grid are tested against the interval of reals that
round to it.  The first grid with a hit wins, and of two hits the nearer.
-/

namespace ShaderLift
namespace Double

/-- The reals that round to a number, in quarters of its unit: the ends of the
interval, and whether they belong to it. -/
structure Interval where
  lower : Nat
  upper : Nat
  closed : Bool
deriving Repr, DecidableEq

/-- The interval of a positive number. -/
def intervalOf (significand : Nat) (exponent : Int) : Interval :=
  { lower :=
      if significand = twoTo 52 && exponent != -1074 then 4 * significand - 1
      else 4 * significand - 2
    upper := 4 * significand + 2
    closed := significand % 2 == 0 }

/-- How many digits a positive quotient has before the decimal point; zero or
negative if it starts with zeros behind the point. -/
def pointPosition (numerator denominator : Nat) : Int :=
  if denominator ≤ numerator then
    (Nat.toDigits 10 (numerator / denominator)).length
  else
    match (List.range 400).find? fun zeros =>
        denominator ≤ numerator * tenTo (zeros + 1) with
    | some zeros => -(zeros : Int)
    | none => -400

/-- The decimal `digits * 10 ^ power` lies in the interval, whose quarters are
`numerator / denominator` each. -/
def Interval.holds
    (interval : Interval)
    (numerator denominator : Nat)
    (digits : Nat)
    (power : Int) : Bool :=
  let value := digits * tenTo power.toNat * denominator
  let scale := numerator * tenTo (-power).toNat
  let lower := interval.lower * scale
  let upper := interval.upper * scale
  (lower < value && value < upper) ||
    (interval.closed && (value == lower || value == upper))

/-- The shortest decimal of a positive number: its digits and the power of ten
that they are multiplied by. -/
def shortest (significand : Nat) (exponent : Int) : Nat × Int :=
  let interval := intervalOf significand exponent
  let quarter := exponent - 2
  let numerator := twoTo quarter.toNat
  let denominator := twoTo (-quarter).toNat
  let point := pointPosition (4 * significand * numerator) denominator
  let candidates := (List.range 17).filterMap fun (count : Nat) =>
    let power := point - ((count + 1 : Nat) : Int)
    let scaled := 4 * significand * numerator * tenTo (-power).toNat
    let unit := denominator * tenTo power.toNat
    let below := scaled / unit
    let nearer := roundDiv scaled unit
    let other := if nearer = below then below + 1 else below
    if interval.holds numerator denominator nearer power then
      some (nearer, power)
    else if interval.holds numerator denominator other power then
      some (other, power)
    else none
  candidates.headD (significand, exponent)

/-- Digits of a decimal without zeros at the end, and the position of the
decimal point relative to the first digit. -/
def significantDigits (digits : Nat) (power : Int) : List Char × Int :=
  let all := Nat.toDigits 10 digits
  let kept := (all.reverse.dropWhile (· == '0')).reverse
  (kept, all.length + power)

/-- Where positional writing ends and an exponent is written instead. -/
structure DecimalStyle where
  /-- Least position of the point that is written positionally. -/
  leastPoint : Int
  /-- Greatest position of the point that is written positionally. -/
  greatestPoint : Int
deriving Repr, DecidableEq

/-- An exponent with its sign and at least two digits. -/
def exponentText (exponent : Int) : List Char :=
  let digits := Nat.toDigits 10 exponent.natAbs
  (if exponent < 0 then '-' else '+') ::
    List.replicate (2 - digits.length) '0' ++ digits

/-- Digits with the point at a position, in the given style. -/
def DecimalStyle.write
    (style : DecimalStyle)
    (digits : List Char)
    (point : Int) : List Char :=
  if style.leastPoint ≤ point && point ≤ style.greatestPoint then
    if point ≤ 0 then
      '0' :: '.' :: List.replicate (-point).toNat '0' ++ digits
    else
      let whole := digits.take point.toNat
      let zeros := List.replicate (point.toNat - digits.length) '0'
      let fraction := digits.drop point.toNat
      whole ++ zeros ++ '.' :: (if fraction.isEmpty then ['0'] else fraction)
  else
    let fraction := digits.drop 1
    digits.take 1 ++ (if fraction.isEmpty then [] else '.' :: fraction) ++
      'e' :: exponentText (point - 1)

/-- The text of a number: the shortest decimal, positional in the given
range. -/
def text (style : DecimalStyle) : Double → String
  | .notNumber => "nan"
  | .infinite negative => if negative then "-inf" else "inf"
  | .finite negative significand exponent =>
      let written :=
        if significand = 0 then ['0', '.', '0']
        else
          let (digits, power) := shortest significand exponent
          let (kept, point) := significantDigits digits power
          style.write kept point
      String.ofList (if negative then '-' :: written else written)

end Double
end ShaderLift
