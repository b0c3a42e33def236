import IncludeTrace.Decimal.Shortest
import IncludeTrace.Text.Basic

/-!
# Numbers as they are written

A number is a whole number or a double. A double is written with its shortest decimal: positionally,
always with a fractional part, while its first digit stands between the fourth place behind the point
and the sixteenth before it, and with an exponent of at least two digits otherwise.
-/

namespace IncludeTrace

/-- A number of a document: whole, or a double. -/
inductive Number
  | whole (n : Int)
  | double (x : Binary64)
  deriving DecidableEq

namespace Number

/-- Digits without the zeros they end in; a zero keeps one digit. -/
def significantDigits (n : Nat) : Text :=
  match (Nat.toDigits 10 n).reverse.dropWhile (· = '0') with
  | [] => ['0']
  | ds => ds.reverse

/-- A positive decimal `n * 10 ^ e`, positionally or with an exponent. -/
def decimalText (n : Nat) (e : Int) : Text :=
  let all := Nat.toDigits 10 n
  let digits := significantDigits n
  let point : Int := all.length + e
  if -4 < point ∧ point ≤ 16 then
    if point ≤ 0 then "0." ++ List.replicate (-point).toNat '0' ++ digits
    else
      let k := point.toNat
      let whole := digits.take k ++ List.replicate (k - digits.length) '0'
      let fraction := digits.drop k
      whole ++ '.' :: (if fraction.isEmpty then ['0'] else fraction)
  else
    let power := point - 1
    let sign : Char := if power < 0 then '-' else '+'
    let exponent := Text.ofNat power.natAbs
    let mantissa := match digits with
      | [] => []
      | [d] => [d]
      | d :: ds => d :: '.' :: ds
    mantissa ++ 'e' :: sign :: (if exponent.length < 2 then '0' :: exponent else exponent)

/-- A double as it is written. -/
def doubleText : Binary64 → Text
  | .notANumber => "nan"
  | .infinite negative => if negative then "-inf" else "inf"
  | .finite negative significand exponent =>
    let sign : Text := if negative then "-" else ""
    if significand = 0 then sign ++ "0.0"
    else
      let (n, e) := Binary64.shortest significand exponent
      sign ++ decimalText n e

/-- The number as it is written. -/
def text : Number → Text
  | whole n => Text.ofInt n
  | double x => doubleText x

/-- Whether the number is zero. -/
def isZero : Number → Bool
  | whole n => n = 0
  | double (.finite _ significand _) => significand = 0
  | double _ => false

end Number

end IncludeTrace
