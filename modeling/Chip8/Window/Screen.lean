import Chip8.Display

/-!
This file holds the picture as drawing calls: the background is cleared, and every lit pixel
becomes one square of the window.
-/

namespace Chip8.Window

/-- A square is given by its corner and its side, in window points. -/
structure Square where
  left : Int
  top : Int
  side : Int
deriving DecidableEq

/-- Colours have four channels from 0 to 255. -/
inductive DrawCall
  | color (red green blue alpha : Nat)
  | clear
  | fill (area : Square)
deriving DecidableEq

namespace Screen

/-- A pixel covers the square at its place in the scaled picture. -/
def pixelSquare (scale : Int) (column row : Nat) : Square :=
  ⟨column * scale, row * scale, scale⟩

def litColumns (display : Display) (row : Nat) : List Nat :=
  (List.range Display.width).filter fun column => display.lit column row

/-- The squares are listed row by row. -/
def squares (scale : Int) (display : Display) : List Square :=
  (List.range Display.height).flatMap fun row =>
    (litColumns display row).map fun column => pixelSquare scale column row

/-- The background is black, and the pixels are light grey. -/
def draw (scale : Int) (display : Display) : List DrawCall :=
  [.color 0 0 0 255, .clear, .color 230 230 230 255] ++ (squares scale display).map .fill

end Screen

end Chip8.Window
