/-!
This file holds the monochrome display. Pixels are only ever toggled; a coordinate that misses
the screen wraps around once, and a coordinate that still misses it is clipped.
-/

namespace Chip8

/-- The picture is stored row by row, and every pixel takes one byte. -/
structure Display where
  pixels : Vector UInt8 2048
deriving DecidableEq

namespace Display

def width : Nat := 64

def height : Nat := 32

def blank : Display := ⟨Vector.replicate 2048 0⟩

/-- A pixel is addressed by its column and its row. -/
def pixel (display : Display) (column row : Nat) : UInt8 :=
  display.pixels[column + width * row]?.getD 0

/-- Every byte but zero is shown as light. -/
def lit (display : Display) (column row : Nat) : Bool :=
  display.pixel column row != 0

/-- Only the byte one is counted. -/
def litCount (display : Display) : Nat :=
  display.pixels.count 1

/-- A coordinate moves by the bound at most once, towards the screen. -/
def wrapOnce (bound : Nat) (coordinate : Int) : Int :=
  if bound ≤ coordinate then coordinate - bound
  else if coordinate < 0 then coordinate + bound
  else coordinate

/-- The cell of a point is its place in the picture, if the wrapped point is on the screen. -/
def cell? (x y : Int) : Option (Fin 2048) :=
  let column := wrapOnce width x
  let row := wrapOnce height y
  if inside : 0 ≤ column ∧ column < 64 ∧ 0 ≤ row ∧ row < 32 then
    some ⟨column.toNat + 64 * row.toNat, by omega⟩
  else none

/-- One cell changes its colour, and the answer says whether the cell is dark afterwards. -/
def toggleCell (display : Display) (cell : Fin 2048) : Display × Bool :=
  let changed := display.pixels[cell] ^^^ 1
  (⟨display.pixels.set cell changed⟩, changed == 0)

/-- The answer is true when the point was erased. A clipped point erases nothing. -/
def toggle (display : Display) (x y : Int) : Display × Bool :=
  match cell? x y with
  | none => (display, false)
  | some cell => display.toggleCell cell

/-- The light of a point is the byte that is stored at its place. -/
theorem lit_iff_stored (display : Display) (column row : Nat) :
    display.lit column row = true ↔ display.pixels.toList.getD (64 * row + column) 0 ≠ 0 := by
  simp [lit, pixel, width, Nat.add_comm column]

theorem pixel_blank (column row : Nat) : blank.pixel column row = 0 := by
  by_cases inside : column + width * row < 2048 <;> simp [pixel, blank, inside]

end Display

end Chip8
