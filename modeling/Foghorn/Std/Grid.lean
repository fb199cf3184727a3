import Mathlib.Algebra.Order.Ring.Int

/-!
# Rounding down to a grid

A grid of positive width cuts the integers into half-open cells. `floorTo` names the
cell a point lies in by its lower edge, and a range widened to whole cells holds a point
exactly when it holds the lower edge of the point's cell.
-/

namespace Foghorn.Std

/-- The greatest multiple of `width` that is not above `point`. -/
def floorTo (width point : Int) : Int := point / width * width

variable {width : Int}

/-- A point is not before its grid line. -/
theorem floorTo_le (positive : 0 < width) (point : Int) : floorTo width point ≤ point :=
  Int.ediv_mul_le point (Int.ne_of_gt positive)

/-- A point is before the next grid line. -/
theorem lt_floorTo_add (positive : 0 < width) (point : Int) :
    point < floorTo width point + width := by
  have bound := Int.lt_ediv_add_one_mul_self point positive
  rw [Int.add_mul, Int.one_mul] at bound
  exact bound

/-- Later points have later grid lines, or the same. -/
theorem floorTo_mono (positive : 0 < width) {first second : Int} (le : first ≤ second) :
    floorTo width first ≤ floorTo width second :=
  Int.mul_le_mul_of_nonneg_right (Int.ediv_le_ediv positive le) (Int.le_of_lt positive)

/-- A grid line is its own. -/
theorem floorTo_floorTo (positive : 0 < width) (point : Int) :
    floorTo width (floorTo width point) = floorTo width point := by
  simp [floorTo, Int.mul_ediv_cancel _ (Int.ne_of_gt positive)]

/-- A lower edge bounds a point exactly when it bounds the point's cell. -/
theorem floorTo_le_iff (positive : 0 < width) (edge point : Int) :
    floorTo width edge ≤ point ↔ floorTo width edge ≤ floorTo width point := by
  constructor
  · intro le
    rw [← floorTo_floorTo positive edge]
    exact floorTo_mono positive le
  · intro le
    exact Int.le_trans le (floorTo_le positive point)

/-- The upper edge of a cell bounds a point exactly when it bounds the point's cell. -/
theorem lt_floorTo_add_iff (positive : 0 < width) (edge point : Int) :
    point < floorTo width edge + width ↔ floorTo width point < floorTo width edge + width := by
  constructor
  · intro lt
    exact Int.lt_of_le_of_lt (floorTo_le positive point) lt
  · intro lt
    -- Cells are whole multiples of the width, so the lower edge is at most `edge`'s own.
    have cell : point / width < edge / width + 1 := by
      apply Int.lt_of_mul_lt_mul_right _ (Int.le_of_lt positive)
      rw [Int.add_mul, Int.one_mul]
      exact lt
    have le : floorTo width point ≤ floorTo width edge :=
      Int.mul_le_mul_of_nonneg_right (Int.le_of_lt_add_one cell) (Int.le_of_lt positive)
    have := lt_floorTo_add positive point
    omega

private theorem floorTo_add_self (positive : 0 < width) (point : Int) :
    floorTo width (point + width) = floorTo width point + width := by
  rw [floorTo, floorTo, Int.add_ediv_of_dvd_right (Int.dvd_refl width),
    Int.ediv_self (Int.ne_of_gt positive), Int.add_mul, Int.one_mul]

/-- Moving a point by whole widths moves its grid line along. -/
theorem floorTo_add_floorTo (positive : 0 < width) (start point : Int) :
    floorTo width (point + floorTo width start) = floorTo width point + floorTo width start := by
  rw [floorTo, floorTo, floorTo, Int.add_mul_ediv_right _ _ (Int.ne_of_gt positive), Int.add_mul]

/-- Counting cells from one cell later ends in the same cell. -/
theorem add_floorTo_sub (positive : 0 < width) (start point : Int) :
    start + width + floorTo width (point - (start + width)) = start + floorTo width (point - start) := by
  have shifted := floorTo_add_self positive (point - (start + width))
  rw [show point - (start + width) + width = point - start by omega] at shifted
  omega

/-- The points of the first cell have grid line 0. -/
theorem floorTo_eq_zero {point : Int} (nonneg : 0 ≤ point) (small : point < width) :
    floorTo width point = 0 := by
  rw [floorTo, Int.ediv_eq_zero_of_lt nonneg small, Int.zero_mul]

/-- A step of at most one cell leaves no gap: the next cell begins where this one ends or
before. -/
theorem floorTo_add_le (positive : 0 < width) {step : Int} (small : step ≤ width) (point : Int) :
    floorTo width (point + step) ≤ floorTo width point + width := by
  calc floorTo width (point + step)
      ≤ floorTo width (point + width) := floorTo_mono positive (by omega)
    _ = floorTo width point + width := floorTo_add_self positive point

end Foghorn.Std
