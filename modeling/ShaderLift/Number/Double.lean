/-!
# Numbers of double precision

A finite number is a significand below `2 ^ 53` times a power of two whose
exponent is at least `-1074`.  A quotient is rounded to the nearest such
number, a tie to the even significand; beyond the greatest number lies
infinity.  Arithmetic on numbers that are not negative rounds the exact
result.
-/

namespace ShaderLift

/-- A power of two. -/
def twoTo (exponent : Nat) : Nat :=
  Nat.pow 2 exponent

/-- A power of ten. -/
def tenTo (exponent : Nat) : Nat :=
  Nat.pow 10 exponent

/-- A number of double precision. -/
inductive Double
  /-- The significand times a power of two, with a sign. -/
  | finite (negative : Bool) (significand : Nat) (exponent : Int)
  | infinite (negative : Bool)
  | notNumber
deriving Repr, DecidableEq

namespace Double

/-- A quotient rounded to an integer, a tie to the even one. -/
def roundDiv (numerator denominator : Nat) : Nat :=
  let quotient := numerator / denominator
  let rest := numerator % denominator
  if denominator < 2 * rest ||
      (2 * rest == denominator && quotient % 2 == 1) then quotient + 1
  else quotient

/-- The exponent with which a positive quotient has a significand of 53 bits,
or the least exponent if that is greater. -/
def exponentFor (numerator denominator : Nat) : Int :=
  let guess : Int := (numerator.log2 : Int) - denominator.log2 - 52
  let fits : Bool :=
    denominator * twoTo (guess + 52).toNat ≤
      numerator * twoTo (-(guess + 52)).toNat
  max (if fits then guess else guess - 1) (-1074)

/-- The number nearest to a quotient that is not negative. -/
def nearest (numerator denominator : Nat) : Double :=
  if numerator = 0 then .finite false 0 0
  else
    let exponent := exponentFor numerator denominator
    let significand :=
      roundDiv (numerator * twoTo (-exponent).toNat)
        (denominator * twoTo exponent.toNat)
    let (significand, exponent) :=
      if significand = twoTo 53 then (twoTo 52, exponent + 1)
      else (significand, exponent)
    if 971 < exponent then .infinite false
    else .finite false significand exponent

/-- The absolute value of a finite number as a quotient. -/
def ratio? : Double → Option (Nat × Nat)
  | .finite _ significand exponent =>
      some (significand * twoTo exponent.toNat, twoTo (-exponent).toNat)
  | _ => none

/-- The sum of two numbers that are not negative. -/
def addPositive (left right : Double) : Double :=
  match left.ratio?, right.ratio? with
  | some (a, b), some (c, d) => nearest (a * d + c * b) (b * d)
  | _, _ => .infinite false

/-- The product of two numbers that are not negative. -/
def mulPositive (left right : Double) : Double :=
  match left.ratio?, right.ratio? with
  | some (a, b), some (c, d) => nearest (a * c) (b * d)
  | _, _ => .infinite false

/-- The number with the given sign. -/
def withSign (negative : Bool) : Double → Double
  | .finite _ significand exponent => .finite negative significand exponent
  | .infinite _ => .infinite negative
  | .notNumber => .notNumber

/-- The number nearest to a decimal: digits times a power of ten.  Powers far
outside the range of finite numbers are not computed. -/
def ofDecimal (digits : Nat) (exponent : Int) : Double :=
  let magnitude := (Nat.toDigits 10 digits).length + exponent
  if digits = 0 || magnitude < -400 then .finite false 0 0
  else if 400 < magnitude then .infinite false
  else nearest (digits * tenTo exponent.toNat) (tenTo (-exponent).toNat)

/-- The integer that a finite number is, if it is one. -/
def integer? : Double → Option Int
  | .finite negative significand exponent =>
      let scale := twoTo (-exponent).toNat
      if significand % scale = 0 then
        let magnitude : Int :=
          (significand / scale * twoTo exponent.toNat : Nat)
        some (if negative then -magnitude else magnitude)
      else none
  | _ => none

end Double
end ShaderLift
