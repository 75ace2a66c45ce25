/-!
# Binary floating point

The finite non-negative numbers of the 64-bit binary format, as a whole number times a power of
two, and the rounding of quotients to them: to the nearest, and to the even one of two that are
equally near. Products and quotients are computed exactly and then rounded once.
-/

namespace Proctor.Decimal

/-- The quotient of two numbers rounded to the nearest whole number, and to the even one of two
that are equally near. -/
def roundDiv (num den : Nat) : Nat :=
  let quotient := num / den
  let remainder := num % den
  if den < 2 * remainder || (den == 2 * remainder && quotient % 2 == 1) then quotient + 1
  else quotient

/-- A finite non-negative number of the format: `mantissa * 2 ^ exponent`. -/
structure Binary64 where
  mantissa : Nat
  exponent : Int
  deriving DecidableEq, Repr

namespace Binary64

/-- The number of bits of a mantissa. -/
def precision : Nat := 53

/-- The least exponent. -/
def leastExponent : Int := -1074

/-- The greatest exponent. -/
def greatestExponent : Int := 971

/-- Zero. -/
def zero : Binary64 := ⟨0, leastExponent⟩

/-- `num / den` times a power of two, as a quotient of whole numbers. -/
def scale (num den : Nat) (exponent : Int) : Nat × Nat :=
  if 0 ≤ exponent then (num * Nat.pow 2 exponent.toNat, den)
  else (num, den * Nat.pow 2 (-exponent).toNat)

/-- The exponent of the last place of a positive quotient. -/
def lastPlace (num den : Nat) : Int :=
  let estimate : Int := num.log2 - den.log2
  let (n, d) := scale num den (-estimate)
  let leading := if n < d then estimate - 1 else estimate
  max (leading - (precision - 1)) leastExponent

/-- A quotient rounded to the format; `none` if it is too large. -/
def ofRatio (num den : Nat) : Option Binary64 :=
  if num = 0 then some zero
  else
    let exponent := lastPlace num den
    let (n, d) := scale num den (-exponent)
    let mantissa := roundDiv n d
    let number : Binary64 :=
      if mantissa = Nat.pow 2 precision then ⟨Nat.pow 2 (precision - 1), exponent + 1⟩
      else ⟨mantissa, exponent⟩
    if greatestExponent < number.exponent then none else some number

/-- A number as a quotient of whole numbers. -/
def ratio (x : Binary64) : Nat × Nat :=
  scale x.mantissa 1 x.exponent

/-- The product of two numbers. -/
def mul (x y : Binary64) : Option Binary64 :=
  let (a, b) := x.ratio
  let (c, d) := y.ratio
  ofRatio (a * c) (b * d)

/-- The quotient of a number by a positive number. -/
def div (x y : Binary64) : Option Binary64 :=
  let (a, b) := x.ratio
  let (c, d) := y.ratio
  ofRatio (a * d) (b * c)

/-- A whole number. -/
def ofNat (n : Nat) : Option Binary64 :=
  ofRatio n 1

/-- A power of ten. -/
def powerOfTen (n : Nat) : Option Binary64 :=
  ofNat (Nat.pow 10 n)

example : ofNat (2 ^ 53 + 1) = some ⟨2 ^ 52, 1⟩ := by decide

example : ofRatio 1 10 = some ⟨7205759403792794, -56⟩ := by decide

example : powerOfTen 309 = none := by decide +kernel

end Binary64

end Proctor.Decimal
