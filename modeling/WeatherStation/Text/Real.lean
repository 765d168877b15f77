import WeatherStation.Text.Decimal

/-!
# Real numerals

Binary64 numbers as decimal text.

* `Numeral.toFloat`: the number nearest to a decimal numeral, of any length and exponent.
* `Magnitude.shortest`: the fewest digits that read back as the same number; of two candidates the
  nearer one, and the even one of two that are equally near.
* `realText`: positional between `1e-5` and `1e16`, always with a fraction; an exponent elsewhere.
-/

namespace WeatherStation.Text

/-! ## Reading -/

/-- A decimal numeral, `± digits · 10 ^ scale`. -/
structure Numeral where
  negative : Bool
  digits : Nat
  scale : Int
  /-- Whether it is written without fraction and exponent. -/
  whole : Bool
  deriving DecidableEq

namespace Numeral

/-- The nearest binary64 number without regard to the sign. Beyond 310 digits before the point, or
    330 zeros after it, the result is infinity or zero. -/
def magnitude (n : Numeral) : Float :=
  let leading := (Nat.toDigits 10 n.digits).length + n.scale
  if n.digits = 0 ∨ leading < -330 then 0
  else if leading > 310 then 1.0 / 0.0
  else Float.ofScientific n.digits (n.scale < 0) n.scale.natAbs

/-- The nearest binary64 number. -/
def toFloat (n : Numeral) : Float := if n.negative then -n.magnitude else n.magnitude

/-- The whole number that a numeral stands for, if it is written as one. A negative zero is not. -/
def toInt? (n : Numeral) : Option Int :=
  if n.whole ∧ n.scale = 0 ∧ ¬(n.negative ∧ n.digits = 0) then
    some (if n.negative then -(n.digits : Int) else n.digits)
  else none

end Numeral

/-! ## Shortest digits -/

/-- A positive binary64 number `mantissa · 2 ^ exponent`. -/
structure Magnitude where
  mantissa : Nat
  exponent : Int
  /-- Whether the next smaller number is only half as far away as the next larger one. -/
  narrowBelow : Bool
  deriving DecidableEq

/-- Digits on a decimal grid, `digits · 10 ^ scale`. -/
structure GridPoint where
  digits : Nat
  scale : Int
  deriving DecidableEq

/-- The fraction `n · base ^ e` as numerator and denominator. -/
def scaled (n base : Nat) (e : Int) : Nat × Nat :=
  if 0 ≤ e then (n * base.pow e.toNat, 1) else (n, base.pow (-e).toNat)

namespace Magnitude

/-- The magnitude of the binary64 number with the given bits, unless it is zero or no finite
    number. -/
def ofBits? (bits : UInt64) : Option Magnitude :=
  let fraction : Nat := bits.toNat % (1 <<< 52)
  let exponent : Nat := (bits.toNat >>> 52) % (1 <<< 11)
  if exponent = 2047 then none
  else if exponent = 0 then if fraction = 0 then none else some ⟨fraction, -1074, false⟩
  else some ⟨(1 <<< 52) + fraction, (exponent : Int) - 1075, fraction = 0 ∧ 1 < exponent⟩

/-- The value as numerator and denominator, in quarters of the distance to the next larger number:
    four times the mantissa. -/
def quarters (x : Magnitude) (n : Nat) : Nat × Nat := scaled n 2 (x.exponent - 2)

/-- Whether a grid point reads back as `x`: it lies between the midpoints to the two neighbours,
    which belong to `x` if the mantissa is even. -/
def readsBack (x : Magnitude) (p : GridPoint) : Bool :=
  let (pn, pd) := scaled p.digits 10 p.scale
  let (ln, ld) := x.quarters (4 * x.mantissa - if x.narrowBelow then 1 else 2)
  let (un, ud) := x.quarters (4 * x.mantissa + 2)
  if x.mantissa % 2 = 0 then decide (ln * pd ≤ pn * ld) && decide (pn * ud ≤ un * pd)
  else decide (ln * pd < pn * ld) && decide (pn * ud < un * pd)

/-- The exponent of the leading decimal digit of `num / den`. -/
def leadingExponent (num den : Nat) : Int :=
  if den ≤ num then (Nat.toDigits 10 (num / den)).length - 1
  else -((Nat.toDigits 10 ((den - 1) / num)).length : Int)

/-- The neighbour of `x` on the grid of `10 ^ scale` that reads back; the nearer one of two, and the
    even one of two that are equally near. -/
def onGrid? (x : Magnitude) (scale : Int) : Option GridPoint :=
  let (num, den) := x.quarters (4 * x.mantissa)
  let (gn, gd) := scaled 1 10 scale
  let below := num * gd / (den * gn)
  let twice := 2 * (num * gd) - 2 * below * (den * gn)
  let lower : GridPoint := ⟨below, scale⟩
  let upper : GridPoint := ⟨below + 1, scale⟩
  match x.readsBack lower, x.readsBack upper with
  | true, true =>
    if twice < den * gn ∨ (twice = den * gn ∧ below % 2 = 0) then some lower else some upper
  | true, false => some lower
  | false, true => some upper
  | false, false => none

/-- The fewest digits that read back as `x`. The search starts above the leading digit, where a
    power of ten may read back, and seventeen digits always suffice. -/
def shortest (x : Magnitude) : GridPoint :=
  let (num, den) := x.quarters (4 * x.mantissa)
  let leading := leadingExponent num den
  let grids := (List.range 18).map fun i : Nat => leading + 1 - i
  (grids.findSome? x.onGrid?).getD ⟨x.mantissa, x.exponent⟩

end Magnitude

/-! ## Printing -/

/-- The text of a grid point: positional if its leading digit stands for `1e-5` to `1e15`, with an
    exponent otherwise. -/
def GridPoint.text (p : GridPoint) : String :=
  let digits := Nat.toDigits 10 p.digits
  let point := digits.length + p.scale
  let zeros (n : Int) : List Char := List.replicate n.toNat '0'
  let positional : List Char :=
    if 0 ≤ p.scale then digits ++ zeros p.scale ++ ['.', '0']
    else if 0 < point then digits.take point.toNat ++ '.' :: digits.drop point.toNat
    else '0' :: '.' :: zeros (-point) ++ digits
  let exponent : List Char := 'e' :: (intText (point - 1)).toList
  String.ofList <|
    if -5 < point ∧ point ≤ 16 then positional
    else match digits with
      | [d] => d :: exponent
      | d :: rest => d :: '.' :: rest ++ exponent
      | [] => exponent

/-- The text of a finite binary64 number. -/
def realText (x : Float) : String :=
  let sign := if x.toBits.toNat < UInt64.size / 2 then "" else "-"
  match Magnitude.ofBits? x.toBits with
  | some m => sign ++ m.shortest.text
  | none => sign ++ "0.0"

end WeatherStation.Text
