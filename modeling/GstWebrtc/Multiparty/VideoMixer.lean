import GstWebrtc.Base.Grid
import GstWebrtc.Base.PyText

/-!
# The layout of the video mixer

After each change of the peers `relayout_videomixer` gives every sink pad of the
mixer but the first one a tile of the frame.  The corner of a tile is a running
sum that is reset when it has reached the width of the frame.
-/

namespace GstWebrtc.Multiparty.RustClient

open GstWebrtc.Base

/-- A sink pad of the mixer with its `xpos`, `ypos`, `width` and `height`. -/
structure SinkPad where
  name : Text
  area : Rect
  deriving DecidableEq

/-- The four `set_property` calls for a pad. -/
def SinkPad.place (pad : SinkPad) (area : Rect) : SinkPad := { pad with area := area }

def videoWidth : Int := 1024

def videoHeight : Int := 768

/-- The `width` and `height` of the grid. -/
def gridSize (npads : Nat) : Nat × Nat :=
  if npads ≤ 1 then (1, 1)
  else if npads ≤ 4 then (2, 2)
  else if npads ≤ 16 then (4, 4)
  -- more than 16 streams are not supported
  else (4, 4)

/-- The loop over the pads that are left, at the corner `x`, `y`. -/
def placePads (frameWidth w h : Int) : Int → Int → List SinkPad → List SinkPad
  | _, _, [] => []
  | x, y, pad :: rest =>
      pad.place ⟨x, y, w, h⟩ ::
        if x + w ≥ frameWidth then placePads frameWidth w h 0 (y + h) rest
        else placePads frameWidth w h (x + w) y rest

/-- The sink pads after `relayout_videomixer`, whose first one is ignored. -/
def relayoutVideomixer (frameWidth frameHeight : Int) : List SinkPad → List SinkPad
  | [] => []
  | first :: pads =>
      let size := gridSize pads.length
      first :: placePads frameWidth (frameWidth.tdiv size.1) (frameHeight.tdiv size.2) 0 0 pads

/-- The pad at each position has the cell of its number, and what follows from that. -/
structure Tiled (frameWidth frameHeight : Int) (columns : Nat) (pads placed : List SinkPad) :
    Prop where
  cells : placed = pads.mapIdx fun i pad =>
    pad.place (Rect.cell columns (frameWidth / columns) (frameHeight / columns) i)
  apart : ∀ (i j : Nat) (pad other : SinkPad), placed[i]? = some pad →
    placed[j]? = some other → i ≠ j → pad.area.Apart other.area
  insideColumns : ∀ pad ∈ placed, pad.area.InsideColumns frameWidth
  inside : ∀ (i : Nat) (pad : SinkPad), placed[i]? = some pad →
    (pad.area.InsideColumns frameWidth ∧ pad.area.InsideRows frameHeight ↔
      i < columns * columns)
  covers : pads.length = columns * columns → ∀ x y, 0 ≤ x → x < frameWidth → 0 ≤ y →
    y < frameHeight → ∃ pad ∈ placed, pad.area.Contains x y

variable {frameWidth frameHeight w h : Int} {columns : Nat} {pads : List SinkPad}

/-- The running corner is that of the cell with the number of the pad. -/
theorem placePads_eq (hc : 0 < columns) (hw : 0 < w) (h : Int) (pads : List SinkPad) (i : Nat) :
    placePads (columns * w) w h (Rect.cell columns w h i).xpos (Rect.cell columns w h i).ypos
      pads = pads.mapIdx fun j pad => pad.place (Rect.cell columns w h (i + j)) := by
  induction pads generalizing i with
  | nil => rfl
  | cons pad rest ih =>
      rw [placePads, List.mapIdx_cons]
      refine congrArg₂ _ rfl ?_
      have later : (fun j (pad : SinkPad) => pad.place (Rect.cell columns w h (i + (j + 1)))) =
          fun j pad => pad.place (Rect.cell columns w h (i + 1 + j)) := by
        funext j pad
        rw [Nat.add_right_comm, Nat.add_assoc]
      rw [later, ← ih (i + 1), Rect.cell_succ hc hw]
      split <;> rfl

/-- Pads that have the cells of a grid of square size tile the frame. -/
theorem tiled_of_cells (hc : 0 < columns) (hw : 0 < w) (hh : 0 < h) :
    Tiled (columns * w) (columns * h) columns pads
      (pads.mapIdx fun i pad => pad.place (Rect.cell columns w h i)) := by
  have positive : (columns : Int) ≠ 0 := by exact_mod_cast hc.ne'
  have cellOf : ∀ (i : Nat) (pad : SinkPad),
      (pads.mapIdx fun i pad => pad.place (Rect.cell columns w h i))[i]? = some pad →
        pad.area = Rect.cell columns w h i := by
    intro i pad found
    rw [List.getElem?_mapIdx, Option.map_eq_some_iff] at found
    obtain ⟨before, -, rfl⟩ := found
    rfl
  constructor
  · rw [Int.mul_ediv_cancel_left _ positive, Int.mul_ediv_cancel_left _ positive]
  · intro i j pad other first second different
    rw [cellOf i pad first, cellOf j other second]
    exact Rect.cell_apart hw hh different
  · intro pad inside
    obtain ⟨i, found⟩ := List.getElem?_of_mem inside
    rw [cellOf i pad found]
    exact Rect.cell_insideColumns hc hw
  · intro i pad found
    rw [cellOf i pad found, and_iff_right (Rect.cell_insideColumns hc hw)]
    exact Rect.cell_insideRows_iff hc hh
  · intro full x y left right top bottom
    obtain ⟨i, bound, contains⟩ := Rect.exists_cell_contains hw hh left right top bottom
    rw [← full] at bound
    refine ⟨(pads[i]).place (Rect.cell columns w h i), ?_, contains⟩
    exact List.mem_mapIdx.mpr ⟨i, bound, rfl⟩

/-- One column for one stream, two for up to four and four for more. -/
theorem gridSize_columns (npads : Nat) :
    (gridSize npads).1 = if npads ≤ 1 then 1 else if npads ≤ 4 then 2 else 4 := by
  simp only [gridSize]
  split
  · rfl
  · split
    · rfl
    · rw [ite_self]

theorem gridSize_square (npads : Nat) : (gridSize npads).2 = (gridSize npads).1 := by
  simp only [gridSize]
  split
  · rfl
  · split
    · rfl
    · rw [ite_self]

theorem gridSize_dvd (npads : Nat) : (gridSize npads).1 ∣ 4 := by
  simp only [gridSize]
  split
  · decide
  · split
    · decide
    · rw [ite_self]

theorem gridSize_pos (npads : Nat) : 0 < (gridSize npads).1 :=
  Nat.pos_of_dvd_of_pos (gridSize_dvd npads) (by decide)

/-- The tiles divide a frame size that is a multiple of 4 without a rest. -/
theorem exists_tile (npads : Nat) {size : Int} (positive : 0 < size) (multiple : 4 ∣ size) :
    ∃ tile, 0 < tile ∧ size = (gridSize npads).1 * tile ∧
      size.tdiv (gridSize npads).1 = tile := by
  have columns : ((gridSize npads).1 : Int) ∣ size :=
    (Int.natCast_dvd_natCast.mpr (gridSize_dvd npads)).trans multiple
  have some : (0 : Int) < (gridSize npads).1 := Int.natCast_pos.mpr (gridSize_pos npads)
  obtain ⟨tile, rfl⟩ := columns
  exact ⟨tile, Int.pos_of_mul_pos_right positive some, rfl, Int.mul_tdiv_cancel_left _ some.ne'⟩

/-- Each pad but the first one has the tile of its number, in one, two or four columns. -/
theorem mixer_tiles {frameWidth frameHeight : Int} (hw : 0 < frameWidth)
    (dw : 4 ∣ frameWidth) (hh : 0 < frameHeight) (dh : 4 ∣ frameHeight) (first : SinkPad)
    (pads : List SinkPad) :
    ∃ columns placed,
      columns = (if pads.length ≤ 1 then 1 else if pads.length ≤ 4 then 2 else 4) ∧
      relayoutVideomixer frameWidth frameHeight (first :: pads) = first :: placed ∧
      Tiled frameWidth frameHeight columns pads placed := by
  obtain ⟨w, wide, rfl, tileWidth⟩ := exists_tile pads.length hw dw
  obtain ⟨h, high, rfl, tileHeight⟩ := exists_tile pads.length hh dh
  have corner : Rect.cell (gridSize pads.length).1 w h 0 = ⟨0, 0, w, h⟩ := by
    simp only [Rect.cell, Nat.zero_mod, Nat.zero_div, Nat.cast_zero, Int.zero_mul]
  have placed := placePads_eq (gridSize_pos pads.length) wide h pads 0
  simp only [corner, Nat.zero_add] at placed
  refine ⟨_, _, gridSize_columns pads.length, ?_,
    tiled_of_cells (gridSize_pos pads.length) wide high⟩
  rw [relayoutVideomixer, gridSize_square, tileWidth, tileHeight, placed]

/-- Two streams share the upper half of the frame, behind the pad of the background. -/
theorem mixer_tiles_two : ∃ columns placed, columns = 2 ∧
    relayoutVideomixer videoWidth videoHeight
      [⟨"sink_0".toList, ⟨0, 0, 1024, 768⟩⟩, ⟨"sink_1".toList, ⟨0, 0, 1024, 768⟩⟩,
        ⟨"sink_2".toList, ⟨0, 0, 0, 0⟩⟩] =
      ⟨"sink_0".toList, ⟨0, 0, 1024, 768⟩⟩ :: placed ∧
    Tiled videoWidth videoHeight columns
      [⟨"sink_1".toList, ⟨0, 0, 1024, 768⟩⟩, ⟨"sink_2".toList, ⟨0, 0, 0, 0⟩⟩] placed := by
  obtain ⟨columns, placed, two, result, tiled⟩ := @mixer_tiles videoWidth videoHeight
    (by decide) (by decide) (by decide) (by decide) ⟨"sink_0".toList, ⟨0, 0, 1024, 768⟩⟩
    [⟨"sink_1".toList, ⟨0, 0, 1024, 768⟩⟩, ⟨"sink_2".toList, ⟨0, 0, 0, 0⟩⟩]
  exact ⟨columns, placed, two, result, tiled⟩

example : (relayoutVideomixer videoWidth videoHeight
    [⟨[], ⟨0, 0, 0, 0⟩⟩, ⟨[], ⟨0, 0, 1024, 768⟩⟩, ⟨[], ⟨0, 0, 0, 0⟩⟩]).map SinkPad.area =
      [⟨0, 0, 0, 0⟩, ⟨0, 0, 512, 384⟩, ⟨512, 0, 512, 384⟩] := by decide

end GstWebrtc.Multiparty.RustClient
