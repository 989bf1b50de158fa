namespace ImportPlan

/-!
# Binary floating point numbers

The finite numbers of the 64-bit binary format, by the integers that make them up. All arithmetic is
exact arithmetic of integers followed by one rounding.

* `Binary64.Magnitude` — a number `mantissa · 2 ^ exponent` without sign.
* `Magnitude.ofRatio` — the nearest magnitude to a ratio, ties to even.
* `Magnitude.mul`, `Magnitude.div` — rounded products and quotients.
* `Magnitude.ofDecimal` — a decimal significand scaled by a power of ten in rounded steps.
-/

namespace Binary64

/-- The number below which a mantissa stays, two to the number of its bits. -/
def mantissaBound : Nat := Nat.pow 2 53

/-- The exponent of the smallest magnitudes. -/
def minExponent : Int := -1074

/-- The exponent of the largest magnitudes. -/
def maxExponent : Int := 971

/-- The number `mantissa · 2 ^ exponent`. -/
structure Magnitude where
  mantissa : Nat
  exponent : Int
  deriving DecidableEq, Repr

/-- The quotient rounded to the nearest integer, a half to the even neighbour. -/
def roundHalfEven (num den : Nat) : Nat :=
  let q := num / den
  let r := num % den
  if 2 * r < den then q
  else if den < 2 * r then q + 1
  else if q % 2 = 0 then q else q + 1

/-- The ratio `num / den` divided by `2 ^ exponent`. -/
def scaleRatio (num den : Nat) (exponent : Int) : Nat × Nat :=
  (num * Nat.pow 2 (-exponent).toNat, den * Nat.pow 2 exponent.toNat)

namespace Magnitude

/-- Zero. -/
def zero : Magnitude := ⟨0, minExponent⟩

/-- Whether the magnitude is zero. -/
def isZero (x : Magnitude) : Bool := x.mantissa == 0

/-- The exponent under which a positive ratio has a mantissa of full length, as far as the format
has such an exponent. -/
def exponentFor (num den : Nat) : Int :=
  let guess : Int := (num.log2 : Int) - den.log2 - 52
  let scaled := scaleRatio num den guess
  let exact := if 2 * scaled.1 < mantissaBound * scaled.2 then guess - 1 else guess
  max exact minExponent

/-- The magnitude nearest to `num / den`; none if that is beyond the largest one. -/
def ofRatio (num den : Nat) : Option Magnitude :=
  if num = 0 then some zero
  else
    let exponent := exponentFor num den
    let scaled := scaleRatio num den exponent
    let m := roundHalfEven scaled.1 scaled.2
    let x : Magnitude :=
      if m = mantissaBound then ⟨m / 2, exponent + 1⟩ else ⟨m, exponent⟩
    if x.exponent ≤ maxExponent then some x else none

/-- The magnitude as a ratio. -/
def toRatio (x : Magnitude) : Nat × Nat := scaleRatio x.mantissa 1 (-x.exponent)

/-- The rounded product. -/
def mul (x y : Magnitude) : Option Magnitude :=
  let (a, b) := x.toRatio
  let (c, d) := y.toRatio
  ofRatio (a * c) (b * d)

/-- The rounded quotient; for `y` other than zero. -/
def div (x y : Magnitude) : Option Magnitude :=
  let (a, b) := x.toRatio
  let (c, d) := y.toRatio
  ofRatio (a * d) (b * c)

/-! ### Decimal numbers -/

/-- The largest power of ten that the format has a neighbour of. -/
def maxPowerOfTen : Nat := 308

/-- The magnitude nearest to a power of ten, up to the largest one. -/
def powerOfTen (n : Nat) : Magnitude := (ofRatio (Nat.pow 10 n) 1).getD zero

/-- Divides by `10 ^ n`, in steps of the largest power of ten. -/
def divPowerOfTen (x : Magnitude) (n : Nat) : Magnitude :=
  if n ≤ maxPowerOfTen then (x.div (powerOfTen n)).getD zero
  else if x.isZero then zero
  else divPowerOfTen ((x.div (powerOfTen maxPowerOfTen)).getD zero) (n - maxPowerOfTen)
termination_by n
decreasing_by simp only [maxPowerOfTen] at *; omega

/-- The magnitude of `significand · 10 ^ exponent`, rounded once for the significand and once for
each scaling; none if it is beyond the largest one. -/
def ofDecimal (significand : Nat) (exponent : Int) : Option Magnitude := do
  let x ← ofRatio significand 1
  if exponent < 0 then return x.divPowerOfTen exponent.natAbs
  else if exponent ≤ maxPowerOfTen then x.mul (powerOfTen exponent.toNat)
  else if x.isZero then return zero
  else none

end Magnitude

end Binary64

/-- A finite number of the format; zero has two signs. -/
structure Binary64 where
  negative : Bool
  magnitude : Binary64.Magnitude
  deriving DecidableEq, Repr

end ImportPlan
