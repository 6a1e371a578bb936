import AgileSeal.Decimal.Binary64

set_option autoImplicit false

/-! # The shortest decimal of a double

A double is written with the fewest digits that read back as the same number, and among
those with the digits nearest to it. Positional notation is used for decimal exponents from
-5 to 15 and always has a point; outside that range the exponent follows the digits, always
with its sign.
-/

namespace AgileSeal

/-- A positive decimal number: its digits, most significant first, and the exponent of the
first. -/
structure Decimal where
  digits : List Char
  exponent : Int
deriving DecidableEq

namespace Decimal

/-! ## Choosing the digits -/

/-- A double `num / den` and the open or closed interval of numbers that round to it: a number
`p` belongs to it when `low ≤ p * den ≤ high`, or strictly between when `closed` is not
set. -/
structure Interval where
  num : Nat
  low : Nat
  high : Nat
  den : Nat
  closed : Bool

/-- The interval of a positive double. Below a power of two the neighbour is half as far
away. -/
def Interval.ofBinary64 (x : Binary64) : Interval :=
  let below := if x.significand == Binary64.leastNormal && Binary64.leastExponent < x.exponent
    then 1 else 2
  let (num, den) := Binary64.scaled (4 * x.significand) 4 (-x.exponent)
  let (one, _) := Binary64.scaled 1 4 (-x.exponent)
  ⟨num, num - below * one, num + 2 * one, den, x.significand % 2 == 0⟩

/-- Whether the number `n * unit` lies in the interval, where `unit` is a fraction. -/
def Interval.holds (i : Interval) (n : Nat) (unit : Nat × Nat) : Bool :=
  let p := n * unit.1 * i.den
  if i.closed then i.low * unit.2 ≤ p && p ≤ i.high * unit.2
  else i.low * unit.2 < p && p < i.high * unit.2

/-- Ten to a power, as a fraction. -/
def tenTo (k : Int) : Nat × Nat :=
  if k < 0 then (1, Nat.pow 10 k.natAbs) else (Nat.pow 10 k.natAbs, 1)

/-- Of the two multiples of `10 ^ k` around the double, the nearest that reads back, if one
does; of two equally near the even one. -/
def Interval.candidate? (i : Interval) (k : Int) : Option Nat :=
  let unit := tenTo k
  let n := i.num * unit.2 / (i.den * unit.1)
  let rest := i.num * unit.2 % (i.den * unit.1)
  let lowerFirst := 2 * rest < i.den * unit.1 || (2 * rest == i.den * unit.1 && n % 2 == 0)
  let order := if lowerFirst then [n, n + 1] else [n + 1, n]
  order.find? fun m => m != 0 && i.holds m unit

/-- The exponent of the first digit of a positive fraction. -/
def leadingExponent (num den : Nat) : Int :=
  if den ≤ num then ((Nat.toDigits 10 (num / den)).length : Int) - 1
  else
    let k := (Nat.toDigits 10 (den / num)).length
    if den ≤ num * Nat.pow 10 (k - 1) then -((k : Int) - 1) else -(k : Int)

/-- A number of units `10 ^ k` as a decimal, without zeros at the end. -/
def ofUnits (n : Nat) (k : Int) : Decimal :=
  let digits := Nat.toDigits 10 n
  ⟨(digits.reverse.dropWhile (· == '0')).reverse, (digits.length : Int) - 1 + k⟩

/-- The shortest decimal that reads back as a positive double. Seventeen digits always do. -/
def shortest (x : Binary64) : Decimal :=
  let i := Interval.ofBinary64 x
  let top := leadingExponent i.num i.den
  -- from one digit to seventeen, the first count that reads back
  let found := (List.range 17).findSome? fun (d : Nat) =>
    (i.candidate? (top - (d : Int))).map fun n => ofUnits n (top - (d : Int))
  found.getD ⟨['0'], 0⟩

/-! ## Writing it -/

/-- The greatest decimal exponent in positional notation. -/
def greatestPositional : Int := 15

/-- The least decimal exponent in positional notation. -/
def leastPositional : Int := -5

/-- The digits, with zeros before or after them and a point. -/
def positional (d : Decimal) : List Char :=
  if d.exponent < 0 then
    ['0', '.'] ++ List.replicate (d.exponent.natAbs - 1) '0' ++ d.digits
  else
    let whole := d.exponent.natAbs + 1
    if d.digits.length ≤ whole then
      d.digits ++ List.replicate (whole - d.digits.length) '0' ++ ['.', '0']
    else d.digits.take whole ++ ['.'] ++ d.digits.drop whole

/-- The exponent with its sign. -/
def exponentText (exponent : Int) : List Char :=
  (if exponent < 0 then '-' else '+') :: Nat.toDigits 10 exponent.natAbs

/-- The first digit, the others after a point, and the exponent. -/
def scientific (d : Decimal) : List Char :=
  let rest := d.digits.drop 1
  d.digits.take 1 ++ (if rest.isEmpty then [] else '.' :: rest) ++ ['e'] ++ exponentText d.exponent

/-- The text of a decimal. -/
def render (d : Decimal) : List Char :=
  if leastPositional ≤ d.exponent && d.exponent ≤ greatestPositional then d.positional
  else d.scientific

end Decimal

namespace Binary64

/-- The text of a double with the given sign. -/
def render (negative : Bool) (x : Binary64) : String :=
  let digits := if x.significand == 0 then ['0', '.', '0'] else (Decimal.shortest x).render
  String.ofList (if negative then '-' :: digits else digits)

example : (ofDecimal? 15 (-1)).map (render false) = some "1.5" ∧
    (ofDecimal? 0 0).map (render true) = some "-0.0" ∧
    (ofDecimal? 1 2).map (render false) = some "100.0" ∧
    (ofDecimal? 9223372036854775809 0).map (render true) = some "-9.223372036854776e+18" ∧
    (ofDecimal? 1 (-5)).map (render false) = some "0.00001" ∧
    (ofDecimal? 1 (-6)).map (render false) = some "1e-6" ∧
    (ofDecimal? 5 (-324)).map (render false) = some "5e-324" ∧
    ofDecimal? 1 309 = none := by decide +kernel

end Binary64

end AgileSeal
