import Chip8.Proofs.PixelParity
import Chip8.Proofs.Presentation
import Mathlib.Data.List.FinRange

/-!
This file holds the picture as a tiling of the window. Every cell of the display has a square of the
window to itself, and the squares that are filled are those of the lit cells.
-/

namespace Chip8

theorem Display.Sketch.binary_ofEdits (edits : List Display.Edit) :
    (ofEdits edits).display.Binary := by
  intro pixel member
  obtain ⟨place, inside, rfl⟩ := Vector.getElem_of_mem member
  exact (counted_ofEdits edits).binary ⟨place, inside⟩

namespace Window

namespace Square

/-- The far sides of a square belong to its neighbours. -/
def Covers (square : Square) (u v : Int) : Prop :=
  (square.left ≤ u ∧ u < square.left + square.side) ∧
    (square.top ≤ v ∧ v < square.top + square.side)

def Inside (square : Square) (width height : Int) : Prop :=
  (0 ≤ square.left ∧ square.left + square.side ≤ width) ∧
    (0 ≤ square.top ∧ square.top + square.side ≤ height)

/-- Two squares overlap when a point lies in both of them. -/
def Overlap (first second : Square) : Prop :=
  ∃ u v, first.Covers u v ∧ second.Covers u v

end Square

/-- Squares tile a picture when they lie inside its window and cover each of its bright points once,
and no other point of the window. -/
structure Tiles (squares : List Square) (width height : Int) (Bright : Int → Int → Prop) :
    Prop where
  inside : ∀ square ∈ squares, square.Inside width height
  apart : squares.Pairwise fun first second => ¬ first.Overlap second
  covered : ∀ u v, 0 ≤ u → u < width → 0 ≤ v → v < height →
    ((∃ square ∈ squares, square.Covers u v) ↔ Bright u v)

def DrawCall.filled? : DrawCall → Option Square
  | .fill area => some area
  | _ => none

namespace Screen

theorem filled_draw (scale : Int) (display : Display) :
    (draw scale display).filterMap DrawCall.filled? = squares scale display := by
  have fills : (squares scale display).filterMap (DrawCall.filled? ∘ DrawCall.fill) =
      squares scale display := List.filterMap_some
  have background : [DrawCall.color 0 0 0 255, .clear, .color 230 230 230 255].filterMap
      DrawCall.filled? = [] := rfl
  rw [draw, List.filterMap_append, List.filterMap_map, fills, background, List.nil_append]

/-- The column and the row of a cell. -/
def placeOf (cell : Fin 2048) : Nat × Nat :=
  (cell.val % 64, cell.val / 64)

theorem placeOf_injective : Function.Injective placeOf := by
  intro first second same
  obtain ⟨column, row⟩ := Prod.mk.inj same
  apply Fin.ext
  rw [← Nat.mod_add_div first.val 64, ← Nat.mod_add_div second.val 64, column, row]

theorem exists_placeOf_iff {column row : Nat} :
    (∃ cell, placeOf cell = (column, row)) ↔ column < Display.width ∧ row < Display.height := by
  simp only [placeOf, Prod.mk.injEq, Display.width, Display.height]
  constructor
  · rintro ⟨cell, rfl, rfl⟩
    have within := cell.isLt
    omega
  · rintro ⟨columnInside, rowInside⟩
    refine ⟨Display.cellOf columnInside rowInside, ?_⟩
    simp only [Display.cellOf]
    omega

/-- A square covers the points whose cell has its place. -/
theorem covers_pixelSquare_iff {scale : Int} (positive : 0 < scale) {column row : Nat}
    {u v : Int} :
    (pixelSquare scale column row).Covers u v ↔ u / scale = column ∧ v / scale = row := by
  rw [Int.ediv_eq_iff_of_pos positive, Int.ediv_eq_iff_of_pos positive]
  rfl

theorem inside_pixelSquare {scale : Int} (positive : 0 < scale) {column row : Nat}
    (columnInside : column < Display.width) (rowInside : row < Display.height) :
    (pixelSquare scale column row).Inside (Display.width * scale) (Display.height * scale) := by
  have spread : 0 ≤ scale := Int.le_of_lt positive
  have near (place : Nat) : 0 ≤ (place : Int) * scale :=
    Int.mul_nonneg (Int.natCast_nonneg place) spread
  have far {place bound : Nat} (within : place < bound) :
      (place : Int) * scale + scale ≤ bound * scale := by
    have next : (place : Int) + 1 ≤ bound := Int.ofNat_le.mpr within
    calc
      (place : Int) * scale + scale = (place + 1) * scale := by rw [Int.add_mul, Int.one_mul]
      _ ≤ bound * scale := Int.mul_le_mul_of_nonneg_right next spread
  exact ⟨⟨near column, far columnInside⟩, near row, far rowInside⟩

theorem lit_placeOf_iff {display : Display} (binary : display.Binary) (cell : Fin 2048) :
    display.lit (placeOf cell).1 (placeOf cell).2 = true ↔ display.pixels.get cell = 1 := by
  have within := cell.isLt
  have columnInside : cell.val % 64 < 64 := Nat.mod_lt _ (by decide)
  have rowInside : cell.val / 64 < 32 := by omega
  rw [placeOf, binary.lit_iff columnInside rowInside, display.pixel_of_cell]

theorem litCount_eq_countP (display : Display) :
    display.litCount = (List.finRange 2048).countP fun cell => display.pixels.get cell == 1 := by
  have whole : Vector.ofFn display.pixels.get = display.pixels := Vector.ofFn_getElem
  have listed : display.pixels.toList = (List.finRange 2048).map display.pixels.get := by
    rw [← List.ofFn_eq_map, ← Vector.toList_ofFn, whole]
  rw [Display.litCount, ← Vector.count_toList, listed, List.count, List.countP_map]
  rfl

/-- The pixels that are not zero are as many as the pixels that are one. -/
theorem length_litCells {display : Display} (binary : display.Binary) :
    (litCells display).length = display.litCount := by
  let bright : List (Fin 2048) :=
    (List.finRange 2048).filter fun cell => display.pixels.get cell == 1
  have listed : (litCells display).Perm (bright.map placeOf) := by
    refine (List.perm_ext_iff_of_nodup (nodup_litCells display)
      (((List.nodup_finRange 2048).filter _).map placeOf_injective)).mpr ?_
    rintro ⟨column, row⟩
    rw [mem_litCells, ← and_assoc, ← exists_placeOf_iff, List.mem_map]
    constructor
    · rintro ⟨⟨cell, same⟩, lit⟩
      refine ⟨cell, ?_, same⟩
      rw [List.mem_filter, beq_iff_eq, ← lit_placeOf_iff binary, same]
      exact ⟨List.mem_finRange cell, lit⟩
    · rintro ⟨cell, member, same⟩
      rw [List.mem_filter, beq_iff_eq, ← lit_placeOf_iff binary, same] at member
      exact ⟨⟨cell, same⟩, member.2⟩
  rw [listed.length_eq, List.length_map, litCount_eq_countP, List.countP_eq_length_filter]

theorem squares_eq_map_pixelSquare (scale : Int) (display : Display) :
    squares scale display = (litCells display).map fun cell => pixelSquare scale cell.1 cell.2 :=
  squares_eq scale display

/-- The squares of two cells have no point in common. -/
theorem overlap_pixelSquare {scale : Int} (positive : 0 < scale) {first second : Nat × Nat}
    (overlap : (pixelSquare scale first.1 first.2).Overlap (pixelSquare scale second.1 second.2)) :
    first = second := by
  obtain ⟨u, v, inFirst, inSecond⟩ := overlap
  rw [covers_pixelSquare_iff positive] at inFirst inSecond
  have column : (first.1 : Int) = second.1 := inFirst.1.symm.trans inSecond.1
  have row : (first.2 : Int) = second.2 := inFirst.2.symm.trans inSecond.2
  exact Prod.ext (Int.ofNat.inj column) (Int.ofNat.inj row)

theorem tiles_squares {scale : Int} (positive : 0 < scale) (display : Display) :
    Tiles (squares scale display) (Display.width * scale) (Display.height * scale)
      fun u v => display.lit (u / scale).toNat (v / scale).toNat = true where
  inside := by
    rw [squares_eq_map_pixelSquare, List.forall_mem_map]
    intro cell member
    obtain ⟨columnInside, rowInside, -⟩ := mem_litCells.mp member
    exact inside_pixelSquare positive columnInside rowInside
  apart := by
    rw [squares_eq_map_pixelSquare, List.pairwise_map]
    exact (nodup_litCells display).imp fun apart overlap =>
      apart (overlap_pixelSquare positive overlap)
  covered u v left right top bottom := by
    have columnInside : u / scale < Display.width :=
      (Int.ediv_lt_iff_lt_mul positive).mpr right
    have rowInside : v / scale < Display.height := (Int.ediv_lt_iff_lt_mul positive).mpr bottom
    have columnNonneg : 0 ≤ u / scale := Int.ediv_nonneg left (Int.le_of_lt positive)
    have rowNonneg : 0 ≤ v / scale := Int.ediv_nonneg top (Int.le_of_lt positive)
    rw [squares_eq_map_pixelSquare]
    constructor
    · rintro ⟨square, member, covers⟩
      obtain ⟨⟨column, row⟩, listed, rfl⟩ := List.mem_map.mp member
      obtain ⟨columnSame, rowSame⟩ := (covers_pixelSquare_iff positive).mp covers
      rw [columnSame, rowSame]
      exact (mem_litCells.mp listed).2.2
    · intro lit
      refine ⟨_, List.mem_map_of_mem (mem_litCells.mpr ⟨?_, ?_, lit⟩), ?_⟩
      · omega
      · omega
      · rw [covers_pixelSquare_iff positive]
        omega

end Screen

/-- The squares that are filled for a picture tile the window, one for each of its lit pixels. A point
of the window is covered when the cell to which it is scaled down is lit. -/
theorem filled_squares_tile_picture (edits : List Display.Edit) (scale : Int)
    (positive : 0 < scale) :
    let display := (Display.Sketch.ofEdits edits).display
    let filled := (Screen.draw scale display).filterMap DrawCall.filled?
    filled.length = display.litCount ∧
      Tiles filled (64 * scale) (32 * scale) fun u v =>
        display.lit (u / scale).toNat (v / scale).toNat = true := by
  intro display filled
  have listed : filled = Screen.squares scale display := Screen.filled_draw scale display
  rw [listed]
  refine ⟨?_, Screen.tiles_squares positive display⟩
  rw [Screen.squares_eq_map_pixelSquare, List.length_map,
    Screen.length_litCells (Display.Sketch.binary_ofEdits edits)]

/-- The corner pixel is lit past the edge and erased on the screen. -/
theorem filled_squares_tile_erased_corner :
    let sketch := Display.Sketch.ofEdits [.toggle 63 31, .toggle 64 32, .toggle 0 0, .toggle 1 0]
    let filled := (Screen.draw 3 sketch.display).filterMap DrawCall.filled?
    filled.length = 2 ∧ (∃ square ∈ filled, square.Covers 5 2) ∧
      ¬ ∃ square ∈ filled, square.Covers 2 2 := by
  intro sketch filled
  obtain ⟨counted, tiles⟩ := filled_squares_tile_picture
    [.toggle 63 31, .toggle 64 32, .toggle 0 0, .toggle 1 0] 3 (by decide)
  refine ⟨?counted, ?lit, ?dark⟩
  case counted =>
    have light : sketch.display.litCount + sketch.answers true = sketch.answers false :=
      (Display.Sketch.counted_ofEdits _).light
    have erasing : sketch.answers true = 1 := by decide +kernel
    have lighting : sketch.answers false = 3 := by decide +kernel
    have two : filled.length = sketch.display.litCount := counted
    omega
  case lit =>
    exact (tiles.covered 5 2 (by decide) (by decide) (by decide) (by decide)).mpr
      (by decide +kernel)
  case dark =>
    rw [tiles.covered 2 2 (by decide) (by decide) (by decide) (by decide)]
    decide +kernel

end Window

end Chip8
