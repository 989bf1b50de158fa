import ImportPlan.Binary64.Basic

namespace ImportPlan.Binary64

/-!
# Shortest decimal text

* `Magnitude.shortest` — the decimal number with the fewest digits among those that round to a
  magnitude, and of these the nearest.
* `Binary64.text` — that number in positional notation, or with an exponent if it is very large or
  very small.
-/

/-- The number `digits · 10 ^ exponent`. -/
structure Decimal where
  digits : Nat
  exponent : Int
  deriving DecidableEq, Repr

namespace Magnitude

/-- The magnitude and the two ends of the interval that rounds to it, over one denominator. -/
structure Interval where
  low : Nat
  value : Nat
  high : Nat
  den : Nat
  /-- Whether the ends themselves round to the magnitude. -/
  closed : Bool

/-- The interval of the numbers that round to `x`; it is narrower below a power of two. -/
def interval (x : Magnitude) : Interval :=
  let (unit, den) := scaleRatio 1 1 (2 - x.exponent)
  let atPower := 2 * x.mantissa = mantissaBound ∧ minExponent < x.exponent
  { low := (4 * x.mantissa - if atPower then 1 else 2) * unit
    value := 4 * x.mantissa * unit
    high := (4 * x.mantissa + 2) * unit
    den
    closed := x.mantissa % 2 = 0 }

namespace Interval

/-- The place of the first digit: the least `p` with the value below `10 ^ p`. -/
def firstPlace (i : Interval) : Int :=
  if i.den ≤ i.value then (Nat.toDigits 10 (i.value / i.den)).length
  else -(((List.range 400).find? fun n => i.den ≤ i.value * Nat.pow 10 (n + 1)).getD 0 : Nat)

/-- Whether the decimal number lies in the interval. -/
def contains (i : Interval) (d : Decimal) : Bool :=
  let point := d.digits * Nat.pow 10 d.exponent.toNat * i.den
  let scale := Nat.pow 10 (-d.exponent).toNat
  if i.closed then i.low * scale ≤ point && point ≤ i.high * scale
  else i.low * scale < point && point < i.high * scale

/-- The decimal number of the interval with this last place that is nearest to the value. -/
def nearestAt? (i : Interval) (exponent : Int) : Option Decimal :=
  let num := i.value * Nat.pow 10 (-exponent).toNat
  let den := i.den * Nat.pow 10 exponent.toNat
  let below : Decimal := ⟨num / den, exponent⟩
  let above : Decimal := ⟨num / den + 1, exponent⟩
  let belowFirst := roundHalfEven num den = below.digits
  let order := if belowFirst then [below, above] else [above, below]
  order.find? i.contains

end Interval

/-- The nearest of the shortest decimal numbers that round to a positive magnitude. The coarsest
grid holds just the power of ten above the magnitude, and seventeen digits are always enough. -/
def shortest (x : Magnitude) : Decimal :=
  let i := x.interval
  let places := (List.range 18).map fun n => i.firstPlace - (n : Nat)
  (places.findSome? i.nearestAt?).getD ⟨0, 0⟩

end Magnitude

/-! ### Layout -/

/-- As many zeros. -/
def zeros (n : Nat) : String := String.ofList (List.replicate n '0')

/-- An exponent with its sign. -/
def exponentText (e : Int) : String := (if 0 ≤ e then "e+" else "e") ++ toString e

/-- Positional notation up to sixteen places before and four zeros after the point, and otherwise a
signed exponent with one digit before the point. -/
def Decimal.text (d : Decimal) : String :=
  let digits := Nat.toDigits 10 d.digits
  let point : Int := digits.length + d.exponent
  if 0 ≤ d.exponent ∧ point ≤ 16 then
    String.ofList digits ++ zeros d.exponent.toNat ++ ".0"
  else if 0 < point ∧ point ≤ 16 then
    String.ofList (digits.take point.toNat) ++ "." ++ String.ofList (digits.drop point.toNat)
  else if -5 < point ∧ point ≤ 0 then
    "0." ++ zeros (-point).toNat ++ String.ofList digits
  else
    let fraction := if digits.length = 1 then "" else "." ++ String.ofList (digits.drop 1)
    String.ofList (digits.take 1) ++ fraction ++ exponentText (point - 1)

end ImportPlan.Binary64

namespace ImportPlan

/-- The number by its fewest digits, with a sign if it is negative. -/
def Binary64.text (x : Binary64) : String :=
  (if x.negative then "-" else "")
    ++ if x.magnitude.isZero then "0.0" else x.magnitude.shortest.text

end ImportPlan
