import Chip8.Proofs.ControlState
import Mathlib.Data.List.Nodup

/-!
This file holds runs of toggles. A cell that is toggled an odd number of times changes its colour,
and a run of toggles is undone by the same run.
-/

namespace Chip8

namespace Display

theorem toggled_twice (pixel : UInt8) : pixel ^^^ 1 ^^^ 1 = pixel := by
  rw [UInt8.xor_assoc, UInt8.xor_self, UInt8.xor_zero]

theorem toggled_ne (pixel : UInt8) : pixel ^^^ 1 ≠ pixel := by
  intro same
  have cancelled : pixel ^^^ (pixel ^^^ 1) = pixel ^^^ pixel := congrArg (pixel ^^^ ·) same
  rw [← UInt8.xor_assoc, UInt8.xor_self, UInt8.zero_xor] at cancelled
  exact absurd cancelled (by decide)

/-- A position at or past the bound is turned back by the bound once. -/
def turnBack (bound position : Nat) : Nat :=
  if bound ≤ position then position - bound else position

/-- Two positions less than a bound apart are never turned back onto each other. -/
theorem turnBack_injective {bound origin first second : Nat} (near : first < bound ∧ second < bound)
    (same : turnBack bound (origin + first) = turnBack bound (origin + second)) :
    first = second := by
  simp only [turnBack] at same
  by_cases firstPast : bound ≤ origin + first
  · by_cases secondPast : bound ≤ origin + second
    · rw [if_pos firstPast, if_pos secondPast] at same
      omega
    · rw [if_pos firstPast, if_neg secondPast] at same
      omega
  · by_cases secondPast : bound ≤ origin + second
    · rw [if_neg firstPast, if_pos secondPast] at same
      omega
    · rw [if_neg firstPast, if_neg secondPast] at same
      omega

theorem wrapOnce_natCast (bound position : Nat) :
    wrapOnce bound position = turnBack bound position := by
  simp only [wrapOnce, turnBack]
  by_cases past : bound ≤ position
  · rw [if_pos (by omega), if_pos past]
    omega
  · rw [if_neg (by omega), if_neg (by omega), if_neg past]

/-- A point is dropped when one of its coordinates is off the screen after it was turned back. -/
theorem cell?_eq_some_iff {x y : Nat} {cell : Fin 2048} :
    cell? x y = some cell ↔
      turnBack width x < 64 ∧ turnBack height y < 32 ∧
        cell.val = turnBack width x + 64 * turnBack height y := by
  simp only [cell?, wrapOnce_natCast]
  split
  · rename_i inside
    simp only [Option.some.injEq, Fin.ext_iff, Int.toNat_natCast]
    omega
  · simp only [reduceCtorEq, false_iff]
    omega

theorem cell_lt {column row : Nat} (columnInside : column < 64) (rowInside : row < 32) :
    column + 64 * row < 2048 := by
  omega

/-- The cell of a point on the screen. -/
def cellOf {column row : Nat} (columnInside : column < 64) (rowInside : row < 32) : Fin 2048 :=
  ⟨column + 64 * row, cell_lt columnInside rowInside⟩

/-- The picture after a run of toggles. -/
def flip (display : Display) (cells : List (Fin 2048)) : Display :=
  cells.foldl (fun flipped cell => (flipped.toggleCell cell).1) display

/-- A run of toggles erases a lit cell when it meets one. -/
def meets (display : Display) (cells : List (Fin 2048)) : Bool :=
  cells.any fun cell => display.pixels.get cell == 1

section Runs

variable (display : Display)

theorem get_toggleCell (target cell : Fin 2048) :
    (display.toggleCell target).1.pixels.get cell =
      if target = cell then display.pixels.get cell ^^^ 1 else display.pixels.get cell := by
  have changed : (display.toggleCell target).1.pixels.get cell =
      (display.pixels.set target.val (display.pixels.get target ^^^ 1))[cell.val] := rfl
  rw [changed, Vector.getElem_set]
  simp only [Fin.ext_iff]
  split
  · rename_i hit
    rw [Fin.ext hit]
  · rfl

/-- Only a lit cell is erased. -/
theorem erased_toggleCell (cell : Fin 2048) :
    (display.toggleCell cell).2 = (display.pixels.get cell == 1) := by
  rw [Bool.eq_iff_iff, beq_iff_eq, ← UInt8.xor_eq_zero_iff]
  exact beq_iff_eq

theorem flip_cons (cell : Fin 2048) (rest : List (Fin 2048)) :
    display.flip (cell :: rest) = (display.toggleCell cell).1.flip rest := rfl

/-- Only the parity of the number of toggles counts. -/
theorem get_flip (cells : List (Fin 2048)) (cell : Fin 2048) :
    (display.flip cells).pixels.get cell =
      if cells.count cell % 2 = 1 then display.pixels.get cell ^^^ 1
      else display.pixels.get cell := by
  induction cells generalizing display with
  | nil => rfl
  | cons target rest inductionHypothesis =>
      rw [flip_cons, inductionHypothesis, get_toggleCell, List.count_cons]
      by_cases hit : target = cell
      · simp only [hit, if_true, beq_self_eq_true]
        by_cases odd : rest.count cell % 2 = 1
        · rw [if_pos odd, if_neg (by omega), toggled_twice]
        · rw [if_neg odd, if_pos (by omega)]
      · simp [hit]

theorem get_flip_of_notMem {cells : List (Fin 2048)} {cell : Fin 2048}
    (absent : cell ∉ cells) : (display.flip cells).pixels.get cell = display.pixels.get cell := by
  rw [get_flip, List.count_eq_zero_of_not_mem absent, if_neg (by decide)]

theorem get_flip_of_mem {cells : List (Fin 2048)} (once : cells.Nodup) {cell : Fin 2048}
    (listed : cell ∈ cells) :
    (display.flip cells).pixels.get cell = display.pixels.get cell ^^^ 1 := by
  rw [get_flip, List.count_eq_one_of_mem once listed, if_pos rfl]

theorem eq_of_get {first second : Display}
    (same : ∀ cell : Fin 2048, first.pixels.get cell = second.pixels.get cell) :
    first = second := by
  cases first with
  | mk firstPixels =>
    cases second with
    | mk secondPixels =>
      congr 1
      exact Vector.ext fun place inside => same ⟨place, inside⟩

/-- Every cell is toggled an even number of times in both runs together. -/
theorem flip_flip (cells : List (Fin 2048)) : (display.flip cells).flip cells = display := by
  apply eq_of_get
  intro cell
  rw [get_flip, get_flip]
  split
  · exact toggled_twice _
  · rfl

/-- A cell of its own is met as if it were the only one. -/
theorem meets_cons {cell : Fin 2048} {rest : List (Fin 2048)} (apart : cell ∉ rest) :
    display.meets (cell :: rest) =
      (display.pixels.get cell == 1 || (display.toggleCell cell).1.meets rest) := by
  have kept : ∀ other ∈ rest,
      (display.toggleCell cell).1.pixels.get other = display.pixels.get other := by
    intro other member
    have different : cell ≠ other := fun same => apart (same ▸ member)
    rw [get_toggleCell, if_neg different]
  rw [meets, List.any_cons, meets]
  congr 1
  rw [Bool.eq_iff_iff, List.any_eq_true, List.any_eq_true]
  constructor
  · rintro ⟨other, member, lit⟩
    exact ⟨other, member, by rw [kept other member]; exact lit⟩
  · rintro ⟨other, member, lit⟩
    exact ⟨other, member, by rw [← kept other member]; exact lit⟩

theorem meets_iff {cells : List (Fin 2048)} :
    display.meets cells = true ↔ ∃ cell ∈ cells, display.pixels.get cell = 1 := by
  simp [meets]

theorem pixel_eq_get {column row : Nat} (columnInside : column < 64) (rowInside : row < 32) :
    display.pixel column row = display.pixels.get (cellOf columnInside rowInside) := by
  simp [pixel, width, cell_lt columnInside rowInside, cellOf, Vector.get]

theorem pixel_of_cell (cell : Fin 2048) :
    display.pixel (cell.val % 64) (cell.val / 64) = display.pixels.get cell := by
  have whole : cell.val % 64 + width * (cell.val / 64) = cell.val := Nat.mod_add_div _ _
  simp [pixel, whole, Vector.get]

end Runs

theorem Binary.get {display : Display} (binary : display.Binary) (cell : Fin 2048) :
    display.pixels.get cell = 0 ∨ display.pixels.get cell = 1 :=
  binary _ (Vector.getElem_mem cell.isLt)

/-- A pixel of a binary picture is lit exactly when it is one. -/
theorem Binary.lit_iff {display : Display} (binary : display.Binary) {column row : Nat}
    (columnInside : column < 64) (rowInside : row < 32) :
    display.lit column row = true ↔ display.pixel column row = 1 := by
  have pixel := binary.get (cellOf columnInside rowInside)
  rw [← display.pixel_eq_get columnInside rowInside] at pixel
  rcases pixel with dark | bright
  · simp [lit, dark]
  · simp [lit, bright]

end Display

end Chip8
