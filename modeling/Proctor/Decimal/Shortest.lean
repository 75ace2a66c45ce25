import Proctor.Decimal.Binary64

/-!
# Shortest decimals

The decimal with the fewest digits that rounds to a given binary number. For one, two, and so on
up to seventeen digits, the two neighbours of the number among the decimals of so many digits are
tried, and the first one that lies among the reals which round to the number is taken: of two, the
nearer one, and of two equally near ones the even one.
-/

namespace Proctor.Decimal

/-- A decimal number: `digits * 10 ^ exponent`. -/
structure Numeral where
  digits : Nat
  exponent : Int
  deriving DecidableEq, Repr

/-- The number of decimal digits of a positive number. -/
def digitCount (n : Nat) : Nat :=
  (Nat.toDigits 10 n).length

/-- `num / den` divided by a power of ten, as a quotient of whole numbers. -/
def unscale (num den : Nat) (exponent : Int) : Nat × Nat :=
  if 0 ≤ exponent then (num, den * Nat.pow 10 exponent.toNat)
  else (num * Nat.pow 10 (-exponent).toNat, den)

/-- The exponent of the leading decimal digit of a positive quotient. -/
def leadingPlace (num den : Nat) : Int :=
  let estimate : Int := digitCount num - digitCount den
  let (n, d) := unscale num den estimate
  if n < d then estimate - 1 else estimate

namespace Binary64

/-- The number and the ends of the interval of reals that round to it, as whole numbers over one
common denominator. Below a power of two the neighbours are only half as far apart. -/
def interval (x : Binary64) : (Nat × Nat × Nat) × Nat :=
  let (unit, den) := scale 1 4 x.exponent
  let number := 4 * x.mantissa * unit
  let narrow := x.mantissa == Nat.pow 2 (precision - 1) && leastExponent < x.exponent
  ((number - (if narrow then 1 else 2) * unit, number, number + 2 * unit), den)

/-- Whether a decimal rounds to a number. The ends of the interval do so if the number is even. -/
def roundsTo (x : Binary64) (decimal : Numeral) : Bool :=
  let ((low, _, high), den) := x.interval
  let (n, d) := unscale 1 1 (-decimal.exponent)
  let value := decimal.digits * n * den
  if x.mantissa % 2 = 0 then low * d ≤ value && value ≤ high * d
  else low * d < value && value < high * d

/-- The decimal with `count` digits that is nearest to a number, of those that round to it. -/
def withDigits? (x : Binary64) (count : Nat) : Option Numeral :=
  let (num, den) := x.ratio
  let exponent := leadingPlace num den + 1 - count
  let (n, d) := unscale num den exponent
  let below : Numeral := ⟨n / d, exponent⟩
  let above : Numeral :=
    if n / d + 1 = Nat.pow 10 count then ⟨1, exponent + count⟩ else ⟨n / d + 1, exponent⟩
  let nearest := if roundDiv n d = n / d then below else above
  let other := if roundDiv n d = n / d then above else below
  if x.roundsTo nearest then some nearest
  else if x.roundsTo other then some other
  else none

/-- The shortest decimal that rounds to a positive number. Seventeen digits are always enough. -/
def shortest (x : Binary64) : Numeral :=
  ((List.range 17).findSome? fun count => x.withDigits? (count + 1)).getD ⟨x.mantissa, x.exponent⟩

end Binary64

/-- A way to write decimals: the point stands among the digits if it comes after more than
`-leadingZeros` and at most `places` digits, and otherwise the number is written with an
exponent, before which `positiveSign` stands if it is not negative. -/
structure Layout where
  leadingZeros : Nat
  places : Nat
  positiveSign : String

namespace Numeral

/-- A decimal as text. A whole number is written with a zero after the point, and a number with an
exponent has the point after the first digit, unless that is the only one. -/
def render (layout : Layout) (decimal : Numeral) : String :=
  let digits := Nat.toDigits 10 decimal.digits
  let point : Int := digits.length + decimal.exponent
  if 0 < point && point ≤ layout.places then
    let whole := digits.take point.toNat
    let zeros := List.replicate (point.toNat - digits.length) '0'
    let fraction := digits.drop point.toNat
    String.ofList (whole ++ zeros ++ '.' :: if fraction.isEmpty then ['0'] else fraction)
  else if -(layout.leadingZeros : Int) < point && point ≤ 0 then
    String.ofList ('0' :: '.' :: List.replicate (-point).toNat '0' ++ digits)
  else
    let mantissa := match digits with
      | [] => []
      | [digit] => [digit]
      | digit :: rest => digit :: '.' :: rest
    let sign := if 0 < point then layout.positiveSign else "-"
    String.ofList mantissa ++ "e" ++ sign ++ toString (point - 1).natAbs

end Numeral

end Proctor.Decimal
