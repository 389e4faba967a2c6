/-!
Finite double-precision numbers, held as sign, significand and binary exponent. `nearest` rounds a
quotient of natural numbers to the nearest double, a tie going to the even significand; products
and quotients of doubles are exact before that one rounding.
-/
namespace StepFlow.Decimal

/-- The number `± significand * 2 ^ exponent`. The form is unique: the significand has 53 bits
unless the exponent is the least one. -/
structure Double where
  negative : Bool
  significand : Nat
  exponent : Int
  deriving DecidableEq, Repr, Inhabited

namespace Double

def leastExponent : Int := -1074

def greatestExponent : Int := 971

def precision : Nat := 53

def zero (negative : Bool) : Double := ⟨negative, 0, leastExponent⟩

def isZero (x : Double) : Bool := x.significand == 0

/-- `num * 2 ^ (-e) / den` as a quotient of natural numbers. -/
def scaled (num den : Nat) (e : Int) : Nat × Nat :=
  if e ≥ 0 then (num, den <<< e.toNat) else (num <<< (-e).toNat, den)

def roundDiv (num den : Nat) : Nat :=
  let q := num / den
  let twice := 2 * (num % den)
  if twice < den then q
  else if den < twice then q + 1
  else if q % 2 = 0 then q else q + 1

/-- The exponent that leaves 53 bits before the point, unless it would be below the least one. -/
def leadingExponent (num den : Nat) : Int :=
  let guess : Int := (num.log2 : Int) - (den.log2 : Int) - 53
  let (n, d) := scaled num den guess
  max (if n / d ≥ 1 <<< precision then guess + 1 else guess) leastExponent

/-- The double nearest to `num / den`, or nothing if that is beyond the greatest double. -/
def nearest (negative : Bool) (num den : Nat) : Option Double :=
  if num = 0 then some (zero negative)
  else
    let e := leadingExponent num den
    let (n, d) := scaled num den e
    let m := roundDiv n d
    let (m, e) := if m = 1 <<< precision then (1 <<< (precision - 1), e + 1) else (m, e)
    if e > greatestExponent then none else some ⟨negative, m, e⟩

def ofNat (n : Nat) : Option Double := nearest false n 1

def mul (x y : Double) : Option Double :=
  let e := x.exponent + y.exponent
  let m := x.significand * y.significand
  let sign := x.negative != y.negative
  if e ≥ 0 then nearest sign (m <<< e.toNat) 1 else nearest sign m (1 <<< (-e).toNat)

def div (x y : Double) : Option Double :=
  let e := x.exponent - y.exponent
  let sign := x.negative != y.negative
  if e ≥ 0 then nearest sign (x.significand <<< e.toNat) y.significand
  else nearest sign x.significand (y.significand <<< (-e).toNat)

def neg (x : Double) : Double := { x with negative := !x.negative }

def powerOfTen (k : Nat) : Option Double := nearest false (Nat.pow 10 k) 1

/-- A decimal `significand * 10 ^ exponent` in at most two roundings per step: the significand is
rounded, then multiplied or divided by the rounded power of ten. Powers beyond `10 ^ 308` are
divided out one such power at a time; nothing is returned where the number is too large. -/
def ofDecimal (significand : Nat) (exponent : Int) : Option Double := do
  let x ← ofNat significand
  go 4 x exponent
where
  go : Nat → Double → Int → Option Double
    | 0, x, _ => some x
    | fuel + 1, x, exponent =>
      if exponent.natAbs ≤ 308 then do
        let p ← powerOfTen exponent.natAbs
        if exponent ≥ 0 then x.mul p else x.div p
      else if x.isZero then some x
      else if exponent ≥ 0 then none
      else do
        let p ← powerOfTen 308
        go fuel (← x.div p) (exponent + 308)

end Double

end StepFlow.Decimal
