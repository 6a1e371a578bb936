set_option autoImplicit false

/-! # Double precision numbers

Numbers in a JSON document that are no whole numbers are held in the 64-bit binary format: a
significand of at most 53 bits times a power of two not below `2 ^ -1074`. The arithmetic
here is exact on natural numbers and rounds once at the end, to the nearest representable
number and to the even significand in the middle.

The value that a significand and a power of ten stand for is computed with one rounding of
the significand, one of the power and one of their product or quotient; for powers below
`10 ^ -308` there is one quotient more.
-/

namespace AgileSeal

/-- The magnitude `significand * 2 ^ exponent` of a double. -/
structure Binary64 where
  significand : Nat
  exponent : Int
deriving DecidableEq

namespace Binary64

/-- `2 ^ 52`, the least significand of a normal number. -/
def leastNormal : Nat := 0x10000000000000

/-- The greatest exponent of a finite number. -/
def greatestExponent : Int := 971

/-- The least exponent. -/
def leastExponent : Int := -1074

/-- The quotient of two numbers, to the nearest whole number and to the even one in the
middle. -/
def roundDiv (num den : Nat) : Nat :=
  let q := num / den
  let r := num % den
  if 2 * r < den then q
  else if den < 2 * r then q + 1
  else if q % 2 == 0 then q else q + 1

/-- Moves a power of two from the exponent into a fraction. -/
def scaled (num den : Nat) (exponent : Int) : Nat × Nat :=
  if exponent < 0 then (num <<< exponent.natAbs, den) else (num, den <<< exponent.natAbs)

/-- The exponent at which a positive fraction has 53 bits before its point, or the least
exponent. -/
def exponentFor (num den : Nat) : Int :=
  let guess : Int := (Nat.log2 num : Int) - (Nat.log2 den : Int) - 52
  let (n, d) := scaled num den guess
  -- the guess is right or one too high
  let exact := if n / d < leastNormal then guess - 1 else guess
  max exact leastExponent

/-- The number nearest to a fraction, which may be too large to be finite. -/
def round (num den : Nat) : Binary64 :=
  if num == 0 then ⟨0, leastExponent⟩
  else
    let exponent := exponentFor num den
    let (n, d) := scaled num den exponent
    let significand := roundDiv n d
    -- rounding up may give one bit more than fits
    if significand == 2 * leastNormal then ⟨leastNormal, exponent + 1⟩
    else ⟨significand, exponent⟩

/-- Whether a rounded number is still finite. -/
def isFinite (x : Binary64) : Bool := x.exponent ≤ greatestExponent

/-- The value as a fraction. -/
def fraction (x : Binary64) : Nat × Nat := scaled x.significand 1 (-x.exponent)

/-- The rounded product. -/
def product (x y : Binary64) : Binary64 :=
  let (xn, xd) := x.fraction
  let (yn, yd) := y.fraction
  round (xn * yn) (xd * yd)

/-- The rounded quotient by a number that is not zero. -/
def quotient (x y : Binary64) : Binary64 :=
  let (xn, xd) := x.fraction
  let (yn, yd) := y.fraction
  round (xn * yd) (xd * yn)

/-- The number nearest to a power of ten. -/
def powerOfTen (k : Nat) : Binary64 := round (Nat.pow 10 k) 1

/-- The greatest power of ten that is finite. -/
def greatestPower : Nat := 308

/-- Divides by a power of ten that may be too large to be finite itself: `10 ^ 308` is divided
off first. A number that would need it twice is zero. -/
def overPower (x : Binary64) (k : Nat) : Binary64 :=
  if k ≤ greatestPower then x.quotient (powerOfTen k)
  else if k ≤ 2 * greatestPower then
    (x.quotient (powerOfTen greatestPower)).quotient (powerOfTen (k - greatestPower))
  else ⟨0, leastExponent⟩

/-- The value of `significand * 10 ^ exponent` for a significand of 64 bits, or nothing when
it is too large. -/
def ofDecimal? (significand : Nat) (exponent : Int) : Option Binary64 :=
  let x := round significand 1
  if significand == 0 then some x
  else if exponent < 0 then some (x.overPower exponent.natAbs)
  else if greatestPower < exponent.natAbs then none
  else
    let large := x.product (powerOfTen exponent.natAbs)
    if large.isFinite then some large else none

end Binary64

end AgileSeal
