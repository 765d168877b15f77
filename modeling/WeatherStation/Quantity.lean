/-!
# Measured quantities

Readings, rain totals and summaries are computed over one small arithmetic, `Quantity`. Stations
run it on binary64 floating point (`Float`), where every sum is taken from left to right and a
result may fail to be a number; the same definitions run on any exact number type.

* `lesser`, `greater`: the smaller and the larger of two values; a value that is no number loses.
* `least`, `greatest`: the extremes of a non-empty list.
* `sum`, `mean`: left-to-right sum, and the sum divided by the length.
-/

namespace WeatherStation

/-- The arithmetic of measured values. -/
class Quantity (α : Type) extends Zero α, One α, Add α, Sub α, Mul α, Div α where
  /-- The value of a whole number. -/
  ofInt : Int → α
  /-- Strict comparison; false whenever either side is no number. -/
  below : α → α → Bool
  /-- False for a result that is no number, such as `0 / 0` in floating point. -/
  isNumber : α → Bool
  /-- True for the values that a document can hold. -/
  isFinite : α → Bool
  /-- The value above all others, if there is one. -/
  top : Option α
  /-- The value below all others, if there is one. -/
  bottom : Option α

namespace Quantity

variable {α : Type} [Quantity α]

/-- The value of a count. -/
def ofNat (n : Nat) : α := ofInt (n : Int)

/-- The smaller of two values. A value that is no number gives way to the other. -/
def lesser (a b : α) : α :=
  if !isNumber a then b else if below b a then b else a

/-- The larger of two values. A value that is no number gives way to the other. -/
def greater (a b : α) : α :=
  if !isNumber a then b else if below a b then b else a

/-- The least of the values `x :: xs`. The search starts from the top of the range where there is
    one, so that a list without a single number has the top as its least value. -/
def least (x : α) (xs : List α) : α :=
  xs.foldl lesser ((top.map (lesser · x)).getD x)

/-- The greatest of the values `x :: xs`, searched from the bottom of the range. -/
def greatest (x : α) (xs : List α) : α :=
  xs.foldl greater ((bottom.map (greater · x)).getD x)

/-- The sum of a list, added from left to right. -/
def sum (xs : List α) : α := xs.foldl (· + ·) 0

/-- The sum of a list divided by its length. -/
def mean (xs : List α) : α := sum xs / ofNat xs.length

end Quantity

/-- Binary64 floating point. -/
instance : Quantity Float where
  zero := 0.0
  one := 1.0
  ofInt := Float.ofInt
  below a b := a < b
  isNumber a := !a.isNaN
  isFinite a := a.isFinite
  top := some (1.0 / 0.0)
  bottom := some (-1.0 / 0.0)

end WeatherStation
