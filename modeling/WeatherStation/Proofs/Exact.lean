import Mathlib.Tactic
import WeatherStation.Quantity

/-!
# Exact values

The arithmetic of measured values without rounding: rational numbers. Every value is a number, and
none is the greatest or the least of all.

Results:
* `Quantity.lesser_rat`, `Quantity.greater_rat`: the smaller and the larger of two rationals.
-/

namespace WeatherStation

/-- Rational numbers. -/
instance : Quantity ℚ where
  ofInt n := n
  below a b := decide (a < b)
  isNumber _ := true
  isFinite _ := true
  top := none
  bottom := none

namespace Quantity

theorem lesser_rat (a b : ℚ) : lesser a b = min a b := by
  simp only [lesser, isNumber, below, Bool.not_true, Bool.false_eq_true, if_false,
    decide_eq_true_eq]
  split_ifs with h
  · exact (min_eq_right h.le).symm
  · exact (min_eq_left (not_lt.1 h)).symm

theorem greater_rat (a b : ℚ) : greater a b = max a b := by
  simp only [greater, isNumber, below, Bool.not_true, Bool.false_eq_true, if_false,
    decide_eq_true_eq]
  split_ifs with h
  · exact (max_eq_right h.le).symm
  · exact (max_eq_left (not_lt.1 h)).symm

end Quantity

end WeatherStation
