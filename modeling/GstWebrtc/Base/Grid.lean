import Mathlib.Data.Int.Cast.Basic
import Mathlib.Tactic.Ring

/-!
# Grids of rectangles

The cells of a grid, numbered row by row.  A rectangle has its left and top
border in it and its right and bottom border not, so that a point lies in the
cell whose column and row the two divisions give.
-/

namespace GstWebrtc.Base

structure Rect where
  xpos : Int
  ypos : Int
  width : Int
  height : Int
  deriving DecidableEq

namespace Rect

variable {r r' : Rect} {columns rows : Nat} {w h x y : Int} {i j : Nat}

def Contains (r : Rect) (x y : Int) : Prop :=
  r.xpos ≤ x ∧ x < r.xpos + r.width ∧ r.ypos ≤ y ∧ y < r.ypos + r.height

/-- The two rectangles have no point in common. -/
def Apart (r r' : Rect) : Prop := ∀ x y, r.Contains x y → ¬ r'.Contains x y

/-- The rectangle does not leave a frame of this width to the left or right. -/
def InsideColumns (r : Rect) (width : Int) : Prop := 0 ≤ r.xpos ∧ r.xpos + r.width ≤ width

/-- The rectangle does not leave a frame of this height upwards or downwards. -/
def InsideRows (r : Rect) (height : Int) : Prop := 0 ≤ r.ypos ∧ r.ypos + r.height ≤ height

/-- The `i`-th cell of a grid. -/
def cell (columns : Nat) (w h : Int) (i : Nat) : Rect where
  xpos := (i % columns : Nat) * w
  ypos := (i / columns : Nat) * h
  width := w
  height := h

/-- A point lies in the cell of its column and row. -/
theorem cell_contains_iff (hw : 0 < w) (hh : 0 < h) :
    (cell columns w h i).Contains x y ↔
      x / w = (i % columns : Nat) ∧ y / h = (i / columns : Nat) := by
  rw [Int.ediv_eq_iff_of_pos hw, Int.ediv_eq_iff_of_pos hh, Contains, cell, and_assoc]

theorem cell_apart (hw : 0 < w) (hh : 0 < h) (different : i ≠ j) :
    (cell columns w h i).Apart (cell columns w h j) := by
  intro x y first second
  rw [cell_contains_iff hw hh] at first second
  have column : i % columns = j % columns := Int.ofNat_inj.mp (first.1.symm.trans second.1)
  have row : i / columns = j / columns := Int.ofNat_inj.mp (first.2.symm.trans second.2)
  exact different (Nat.ext_div_mod row column)

theorem cell_insideColumns (hc : 0 < columns) (hw : 0 < w) :
    (cell columns w h i).InsideColumns (columns * w) := by
  have column : ((i % columns : Nat) : Int) + 1 ≤ columns := by
    exact_mod_cast Nat.mod_lt i hc
  constructor
  · exact Int.mul_nonneg (Int.natCast_nonneg _) hw.le
  · calc ((i % columns : Nat) : Int) * w + w
      _ = (((i % columns : Nat) : Int) + 1) * w := by ring
      _ ≤ columns * w := Int.mul_le_mul_of_nonneg_right column hw.le

theorem cell_insideRows_iff (hc : 0 < columns) (hh : 0 < h) :
    (cell columns w h i).InsideRows (rows * h) ↔ i < rows * columns := by
  have below : ((i / columns : Nat) : Int) * h + h = (((i / columns : Nat) : Int) + 1) * h := by
    ring
  rw [← Nat.div_lt_iff_lt_mul hc]
  constructor
  · rintro ⟨-, bottom⟩
    have row := Int.le_of_mul_le_mul_right (below ▸ bottom) hh
    omega
  · intro row
    refine ⟨Int.mul_nonneg (Int.natCast_nonneg _) hh.le, ?_⟩
    have next : ((i / columns : Nat) : Int) + 1 ≤ rows := by exact_mod_cast row
    exact below ▸ Int.mul_le_mul_of_nonneg_right next hh.le

/-- Every point of the frame lies in a cell of its rows. -/
theorem exists_cell_contains (hw : 0 < w) (hh : 0 < h) (left : 0 ≤ x) (right : x < columns * w)
    (top : 0 ≤ y) (bottom : y < rows * h) :
    ∃ i < rows * columns, (cell columns w h i).Contains x y := by
  obtain ⟨column, hcolumn⟩ := Int.eq_ofNat_of_zero_le (Int.ediv_nonneg left hw.le)
  obtain ⟨row, hrow⟩ := Int.eq_ofNat_of_zero_le (Int.ediv_nonneg top hh.le)
  have inRow : column < columns := by
    have bound := Int.ediv_lt_of_lt_mul hw right
    omega
  have inRows : row < rows := by
    have bound := Int.ediv_lt_of_lt_mul hh bottom
    omega
  refine ⟨row * columns + column, ?_, (cell_contains_iff hw hh).mpr ⟨?_, ?_⟩⟩
  · calc row * columns + column
      _ < row * columns + columns := Nat.add_lt_add_left inRow _
      _ = (row + 1) * columns := by ring
      _ ≤ rows * columns := Nat.mul_le_mul_right columns inRows
  · rw [hcolumn, Nat.add_comm, Nat.add_mul_mod_self_right, Nat.mod_eq_of_lt inRow]
  · rw [hrow, Nat.add_comm, Nat.add_mul_div_right _ _ (Nat.zero_lt_of_lt inRow),
      Nat.div_eq_of_lt inRow, Nat.zero_add]

/-- Behind the last column the next number begins a row. -/
theorem succ_column_row (hc : 0 < columns) (last : i % columns + 1 = columns) :
    (i + 1) % columns = 0 ∧ (i + 1) / columns = i / columns + 1 := by
  have whole : i + 1 = 0 + (i / columns + 1) * columns := by
    have parts := Nat.div_add_mod' i columns
    rw [Nat.add_mul]
    omega
  rw [whole, Nat.add_mul_mod_self_right, Nat.add_mul_div_right _ _ hc]
  exact ⟨Nat.zero_mod _, by rw [Nat.zero_div, Nat.zero_add]⟩

theorem succ_column (inside : i % columns + 1 < columns) :
    (i + 1) % columns = i % columns + 1 ∧ (i + 1) / columns = i / columns := by
  have whole : i + 1 = (i % columns + 1) + i / columns * columns := by
    have parts := Nat.div_add_mod' i columns
    omega
  have hc : 0 < columns := Nat.zero_lt_of_lt inside
  constructor
  · rw [whole, Nat.add_mul_mod_self_right, Nat.mod_eq_of_lt inside]
  · rw [whole, Nat.add_mul_div_right _ _ hc, Nat.div_eq_of_lt inside, Nat.zero_add]

/-- The cell that follows the last one of a row begins the next row. -/
theorem cell_succ (hc : 0 < columns) (hw : 0 < w) :
    cell columns w h (i + 1) =
      if (cell columns w h i).xpos + w ≥ columns * w then
        ⟨0, (cell columns w h i).ypos + h, w, h⟩
      else ⟨(cell columns w h i).xpos + w, (cell columns w h i).ypos, w, h⟩ := by
  have column := Nat.mod_lt i hc
  have right : (cell columns w h i).xpos + w = ((i % columns + 1 : Nat) : Int) * w := by
    rw [cell]
    push_cast
    ring
  have reach : (cell columns w h i).xpos + w ≥ columns * w ↔ columns ≤ i % columns + 1 := by
    rw [right, ge_iff_le, Int.mul_le_mul_iff_of_pos_right hw, Int.ofNat_le]
  split
  · next full =>
      obtain ⟨first, next⟩ := succ_column_row hc (Nat.le_antisymm column (reach.mp full))
      rw [cell, first, next]
      simp only [cell, Nat.cast_zero, Int.zero_mul, Nat.cast_add, Nat.cast_one, Int.add_mul,
        Int.one_mul]
  · next on =>
      obtain ⟨next, same⟩ := succ_column (Nat.lt_of_not_le fun full => on (reach.mpr full))
      rw [right, cell, next, same]
      rfl

end Rect

end GstWebrtc.Base
