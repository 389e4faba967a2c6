import StepFlow.Decimal.Double
import StepFlow.Text.Basic

/-!
The shortest decimal that reads back as a given double. The reals that round to a double form an
interval around it; a decimal of `n` digits lies in it exactly if one of the double's two
neighbours on the grid of such decimals does, so the first `n` with a hit is the least.
-/
namespace StepFlow.Decimal
open Text

/-- The double's value, and the ends of the interval that rounds to it, over one denominator. -/
structure Interval where
  low : Nat
  value : Nat
  high : Nat
  den : Nat
  closed : Bool

/-- The interval of a positive double. At a power of two the lower half is half as wide. -/
def Double.interval (x : Double) : Interval :=
  let m := x.significand
  let narrow := m = 1 <<< (precision - 1) && x.exponent != leastExponent
  let (low, value, high) := (4 * m - (if narrow then 1 else 2), 4 * m, 4 * m + 2)
  let e := x.exponent - 2
  let closed := m % 2 == 0
  if e ≥ 0 then
    ⟨low <<< e.toNat, value <<< e.toNat, high <<< e.toNat, 1, closed⟩
  else ⟨low, value, high, 1 <<< (-e).toNat, closed⟩

def Interval.contains (i : Interval) (digits : Nat) (k : Int) : Bool :=
  let (num, scale) :=
    if k ≥ 0 then (digits * Nat.pow 10 k.toNat * i.den, 1) else (digits * i.den, Nat.pow 10 (-k).toNat)
  if i.closed then i.low * scale ≤ num && num ≤ i.high * scale
  else i.low * scale < num && num < i.high * scale

/-- The largest `k` with `10 ^ k ≤ num / den`, for a positive quotient. -/
def decimalExponent (num den : Nat) : Int :=
  let guess : Int := ((num.log2 : Int) - (den.log2 : Int)) * 30103 / 100000 - 1
  let reaches (k : Int) : Bool :=
    if k ≥ 0 then Nat.pow 10 k.toNat * den ≤ num else den ≤ num * Nat.pow 10 (-k).toNat
  if reaches (guess + 2) then guess + 2 else if reaches (guess + 1) then guess + 1 else guess

/-- The neighbours of the value among the multiples of `10 ^ k`: of those in the interval the
nearer one, of two equally near ones the even one. -/
def Interval.neighbour? (i : Interval) (k : Int) : Option Nat :=
  let (num, den) :=
    if k ≥ 0 then (i.value, i.den * Nat.pow 10 k.toNat)
    else (i.value * Nat.pow 10 (-k).toNat, i.den)
  let below := num / den
  let twice := 2 * (num % den)
  let nearer := if twice < den then below else if den < twice then below + 1
    else if below % 2 = 0 then below else below + 1
  let other := if nearer = below then below + 1 else below
  if i.contains nearer k then some nearer
  else if i.contains other k then some other
  else none

/-- Digits and exponent of the shortest decimal, without zeros at the end of the digits. -/
def shortest (x : Double) : Nat × Int :=
  let i := x.interval
  let top := decimalExponent i.value i.den
  let rec search : Nat → Nat → Nat × Int
    | 0, _ => (0, 0)
    | fuel + 1, count =>
      let k := top - (count : Int)
      match i.neighbour? k with
      | some digits => (digits, k)
      | none => search fuel (count + 1)
  let (digits, k) := search 20 0
  strip 20 digits k
where
  strip : Nat → Nat → Int → Nat × Int
    | 0, digits, k => (digits, k)
    | fuel + 1, digits, k =>
      if digits % 10 = 0 && digits != 0 then strip fuel (digits / 10) (k + 1) else (digits, k)

structure Notation where
  leastPositional : Int
  leastScientific : Int

def positional (digits : List Char) (k : Int) : List Char :=
  if k ≥ 0 then digits ++ List.replicate k.toNat '0' ++ ['.', '0']
  else
    let places := (-k).toNat
    if digits.length > places then
      digits.take (digits.length - places) ++ '.' :: digits.drop (digits.length - places)
    else '0' :: '.' :: List.replicate (places - digits.length) '0' ++ digits

/-- `digits * 10 ^ k` with one digit before the point and a signed exponent; a point stands only
before further digits. -/
def scientific (digits : List Char) (k : Int) : List Char :=
  let e := k + (digits.length : Int) - 1
  let fraction := match digits.drop 1 with
    | [] => []
    | more => '.' :: more
  digits.take 1 ++ fraction ++ 'e' :: (if e < 0 then '-' else '+') :: natDigits e.natAbs

def Double.print (form : Notation) (x : Double) : List Char :=
  let text :=
    if x.isZero then ['0', '.', '0']
    else
      let (digits, k) := shortest x
      let digits := natDigits digits
      let top := k + (digits.length : Int) - 1
      if form.leastPositional ≤ top && top < form.leastScientific then positional digits k
      else scientific digits k
  if x.negative then '-' :: text else text

end StepFlow.Decimal
