import IncludeTrace.Text.Basic

/-!
# Ranges of code points

A character class is a list of ranges in ascending order. `Ranges.has` walks the list and stops at
the first range that lies behind the code point.
-/

namespace IncludeTrace

/-- Inclusive ranges of code points in ascending order. -/
abbrev Ranges := List (Nat × Nat)

namespace Ranges

/-- Whether one of the ranges holds `n`. -/
def has : Ranges → Nat → Bool
  | [], _ => false
  | (first, last) :: rest, n => if n < first then false else n ≤ last || has rest n

/-- The first code point of the range that holds `n`, if there is one. -/
def start? : Ranges → Nat → Option Nat
  | [], _ => none
  | (first, last) :: rest, n =>
    if n < first then none else if n ≤ last then some first else start? rest n

/-- Ranges are **ascending** when each is inhabited and ends before the next begins. -/
def Ascending : Ranges → Prop
  | [] => True
  | [(first, last)] => first ≤ last
  | (first, last) :: (next, stop) :: rest =>
    first ≤ last ∧ last < next ∧ Ascending ((next, stop) :: rest)

end Ranges

end IncludeTrace
