import IncludeTrace.Decimal.Binary64

/-!
# Shortest decimals

The decimal that is written for a double is the one with the **fewest digits** that reads back as
that double, and of several the nearest to it. The numbers that read back form an interval whose ends
belong to it exactly when the significand is even. On the grid of decimals with a given number of
digits only the two neighbours of the double need to be looked at.
-/

namespace IncludeTrace.Binary64

/-- A double with the ends of the interval of numbers that are read as it, over one denominator. -/
structure Window where
  low : Nat
  value : Nat
  high : Nat
  den : Nat
  closed : Bool

/-- The numbers that are read as the double `significand * 2 ^ exponent`. Below a power of two the
doubles lie twice as close. -/
def window (significand : Nat) (exponent : Int) : Window :=
  let below := if significand = leastSignificand ∧ exponent > -1074 then 1 else 2
  let (unit, den) := scaled 2 1 4 (-exponent)
  ⟨(4 * significand - below) * unit, 4 * significand * unit, (4 * significand + 2) * unit, den,
    significand % 2 = 0⟩

/-- Whether `n * num / den` lies in the window. -/
def Window.holds (w : Window) (n num den : Nat) : Bool :=
  let x := n * num * w.den
  if w.closed then w.low * den ≤ x && x ≤ w.high * den else w.low * den < x && x < w.high * den

/-- The decimals on the grid `num / den` that are next to the double, nearest first, as far as they
lie in the window. -/
def Window.onGrid (w : Window) (num den : Nat) : Option Nat :=
  let down := w.value * den / (w.den * num)
  let rest := w.value * den - down * (w.den * num)
  let upFirst := w.den * num < 2 * rest ∨ (w.den * num = 2 * rest ∧ down % 2 = 1)
  let candidates := if upFirst then [down + 1, down] else [down, down + 1]
  candidates.find? fun n => w.holds n num den

/-- The power of ten just above the double: the least `k` with `value < 10 ^ k`. -/
def Window.magnitude (w : Window) : Int :=
  if w.den ≤ w.value then (Nat.toDigits 10 (w.value / w.den)).length
  else
    let zeros := (Nat.toDigits 10 (w.den / w.value)).length
    if w.den ≤ w.value * Nat.pow 10 (zeros - 1) then -((zeros : Int) - 2) else -((zeros : Int) - 1)

/-- The first grid, from `digits` digits on, with a decimal in the window: the decimal and the power
of ten it is counted in. -/
def Window.search (w : Window) (k : Int) : Nat → Nat → Nat × Int
  | 0, digits => (w.value / w.den, k - digits)
  | fuel + 1, digits =>
    let e := k - digits
    let (num, den) := scaled 10 1 1 (-e)
    match w.onGrid num den with
    | some n => (n, e)
    | none => search w k fuel (digits + 1)

/-- The **shortest decimal** `n * 10 ^ e` of a positive double, as the pair of `n` and `e`. Seventeen
digits always suffice. -/
def shortest (significand : Nat) (exponent : Int) : Nat × Int :=
  let w := window significand exponent
  w.search w.magnitude 17 1

end IncludeTrace.Binary64
