/-!
# Binary floating-point numbers

A **double** is a significand below `2 ^ 53` times a power of two, with a sign, or one of the special
values. `Binary64.ofDecimal` gives the double nearest to a decimal fraction, of two equally near the
one with the even significand. All arithmetic is on natural numbers.
-/

namespace IncludeTrace

/-- A double-precision number. In normal form the significand has 53 bits unless the exponent is the
least one, `-1074`. -/
inductive Binary64
  | finite (negative : Bool) (significand : Nat) (exponent : Int)
  | infinite (negative : Bool)
  | notANumber
  deriving DecidableEq

namespace Binary64

/-- `num / den` rounded to the nearest natural number, halves to the even one. -/
def roundHalfEven (num den : Nat) : Nat :=
  let q := num / den
  let twice := 2 * (num % den)
  if twice < den then q else if den < twice then q + 1 else if q % 2 = 0 then q else q + 1

/-- The least significand of 53 bits. -/
def leastSignificand : Nat := Nat.pow 2 52

/-- A fraction divided by the `e`-th power of `base`. -/
def scaled (base num den : Nat) (e : Int) : Nat × Nat :=
  if e < 0 then (num * Nat.pow base (-e).toNat, den) else (num, den * Nat.pow base e.toNat)

/-- The exponent at which `num / den` has a significand of 53 bits, or the least exponent. -/
def exponentFor (num den : Nat) : Int :=
  let guess : Int := (num.log2 : Int) - (den.log2 : Int) - 53
  let (n, d) := scaled 2 num den guess
  let fitting := if n / d < 2 * leastSignificand then guess else guess + 1
  max fitting (-1074)

/-- The double nearest to the positive fraction `num / den`. -/
def ofFraction (negative : Bool) (num den : Nat) : Binary64 :=
  let e := exponentFor num den
  let (n, d) := scaled 2 num den e
  let m := roundHalfEven n d
  let (m, e) := if m = 2 * leastSignificand then (leastSignificand, e + 1) else (m, e)
  if e > 971 then .infinite negative else .finite negative m e

/-- The double nearest to `digits * 10 ^ exponent`. Exponents far outside the range of doubles are
settled without computing the power. -/
def ofDecimal (negative : Bool) (digits : Nat) (exponent : Int) : Binary64 :=
  let magnitude := (Nat.toDigits 10 digits).length + exponent
  if digits = 0 ∨ magnitude < -400 then .finite negative 0 (-1074)
  else if magnitude > 400 then .infinite negative
  else
    let (num, den) := scaled 10 digits 1 (-exponent)
    ofFraction negative num den

end Binary64

end IncludeTrace
