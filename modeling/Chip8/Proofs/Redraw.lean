import Chip8.Proofs.AccessBounds
import Chip8.Proofs.Sprite

/-!
This file holds the drawing of a sprite twice. The second drawing erases the first one, unless the
origin is the flag: an erased pixel sets the flag, and the pixels behind it are placed one column to
the right and one row down.
-/

namespace Chip8

/-- Close to the upper left corner no point leaves the screen. -/
theorem cellAt?_eq_some_iff {origin : Nat} {offset : Nat × Nat} {cell : Fin 2048}
    (corner : origin ≤ 1) (inside : offset.1 < 8 ∧ offset.2 < 16) :
    cellAt? origin offset = some cell ↔ cell.val = rank offset + 65 * origin := by
  have column : Display.turnBack Display.width (origin + offset.1) = origin + offset.1 :=
    if_neg (by simp only [Display.width]; omega)
  have row : Display.turnBack Display.height (origin + offset.2) = origin + offset.2 :=
    if_neg (by simp only [Display.height]; omega)
  rw [cellAt?, Display.cell?_eq_some_iff, column, row, rank]
  omega

theorem exists_cell_of_rank {offset : Nat × Nat} (inside : offset.1 < 8 ∧ offset.2 < 16) :
    ∃ cell : Fin 2048, cell.val = rank offset := by
  have bounded : rank offset < 2048 := by
    unfold rank
    omega
  exact ⟨⟨rank offset, bounded⟩, rfl⟩

theorem mem_placed_corner {origin : Nat} {offsets : List (Nat × Nat)} {cell : Fin 2048}
    (corner : origin ≤ 1) (sprite : IsSprite offsets) :
    cell ∈ placed origin offsets ↔ ∃ offset ∈ offsets, cell.val = rank offset + 65 * origin := by
  rw [placed, List.mem_filterMap]
  exact exists_congr fun offset => and_congr_right fun member =>
    cellAt?_eq_some_iff corner (sprite.inside offset member)

namespace Display

/-- A point of a sprite in the corner strikes when its pixel is lit. -/
def strikes (display : Display) (offset : Nat × Nat) : Bool :=
  (cellAt? 0 offset).any fun cell => display.pixels.get cell == 1

/-- The points up to the first one that strikes. -/
def anchored (display : Display) : List (Nat × Nat) → List (Nat × Nat)
  | [] => []
  | offset :: rest => if display.strikes offset then [offset] else offset :: display.anchored rest

/-- The points behind the first one that strikes. -/
def shifted (display : Display) : List (Nat × Nat) → List (Nat × Nat)
  | [] => []
  | offset :: rest => if display.strikes offset then rest else display.shifted rest

/-- The first point that strikes moves the origin of the points behind it. -/
def flipMoving (display : Display) (offsets : List (Nat × Nat)) : Display :=
  (display.flip (placed 0 (display.anchored offsets))).flip (placed 1 (display.shifted offsets))

section Parts

variable (display : Display)

theorem anchored_append_shifted (offsets : List (Nat × Nat)) :
    display.anchored offsets ++ display.shifted offsets = offsets := by
  induction offsets with
  | nil => rfl
  | cons offset rest inductionHypothesis =>
      unfold anchored shifted
      split
      · rfl
      · rw [List.cons_append, inductionHypothesis]

theorem anchored_sublist (offsets : List (Nat × Nat)) :
    (display.anchored offsets).Sublist offsets := by
  have first := List.sublist_append_left (display.anchored offsets) (display.shifted offsets)
  rwa [anchored_append_shifted] at first

theorem shifted_sublist (offsets : List (Nat × Nat)) :
    (display.shifted offsets).Sublist offsets := by
  have second := List.sublist_append_right (display.anchored offsets) (display.shifted offsets)
  rwa [anchored_append_shifted] at second

theorem meets_placed (offsets : List (Nat × Nat)) :
    display.meets (placed 0 offsets) = offsets.any display.strikes := by
  rw [meets, placed, List.any_filterMap]
  rfl

/-- No point strikes before the last of the anchored ones. -/
theorem anchored_still (offsets : List (Nat × Nat)) :
    display.meets (placed 0 (display.anchored offsets).dropLast) = false := by
  rw [meets_placed]
  induction offsets with
  | nil => rfl
  | cons offset rest inductionHypothesis =>
      unfold anchored
      split
      · rfl
      · rename_i clear
        cases later : display.anchored rest with
        | nil => rfl
        | cons next others =>
            rw [later] at inductionHypothesis
            rw [List.dropLast_cons_cons, List.any_cons, inductionHypothesis, Bool.or_false]
            exact Bool.eq_false_iff.mpr clear

/-- Points are shifted only when one has struck. -/
theorem anchored_struck {offsets : List (Nat × Nat)} (moved : display.shifted offsets ≠ []) :
    display.meets (placed 0 (display.anchored offsets)) = true := by
  rw [meets_placed]
  induction offsets with
  | nil => exact absurd rfl moved
  | cons offset rest inductionHypothesis =>
      unfold shifted at moved
      unfold anchored
      split
      · rename_i struck
        rw [List.any_cons, struck, Bool.true_or]
      · rename_i clear
        rw [if_neg clear] at moved
        rw [List.any_cons, inductionHypothesis moved, Bool.or_true]

theorem flipMoving_of_short {offsets : List (Nat × Nat)} (short : offsets.length ≤ 1) :
    display.flipMoving offsets = display.flip (placed 0 offsets) := by
  match offsets, short with
  | [], _ => rfl
  | [offset], _ =>
      unfold flipMoving anchored shifted
      split <;> rfl

end Parts

section FirstPoints

variable (display : Display) {first second : Nat × Nat} {rest : List (Nat × Nat)}
  (sprite : IsSprite (first :: second :: rest))

include sprite

/-- A shifted point comes behind the first two, for it lies behind the first one and is moved on. -/
theorem notMem_placed_shifted {cell : Fin 2048} (early : cell.val ≤ rank second) :
    cell ∉ placed 1 (display.shifted (first :: second :: rest)) := by
  have part : (display.shifted (first :: second :: rest)).Sublist (second :: rest) := by
    unfold shifted
    split
    · exact List.Sublist.refl _
    · exact display.shifted_sublist _
  have behind := (sprite.sublist (List.sublist_cons_self first _)).ordered
  rw [mem_placed_corner (Nat.le_refl 1) (sprite.sublist (display.shifted_sublist _))]
  rintro ⟨offset, member, number⟩
  rcases List.mem_cons.mp (part.mem member) with rfl | later
  · omega
  · have after := (List.pairwise_cons.mp behind).1 offset later
    omega

/-- The first two points are placed from the corner, if at all. -/
theorem get_flipMoving {cell : Fin 2048} (early : cell.val ≤ rank second) :
    (display.flipMoving (first :: second :: rest)).pixels.get cell =
      (display.flip (placed 0 (display.anchored (first :: second :: rest)))).pixels.get cell := by
  rw [flipMoving, get_flip_of_notMem _ (display.notMem_placed_shifted sprite early)]

variable {firstCell : Fin 2048} (firstPlaced : firstCell.val = rank first)

include firstPlaced

theorem strikes_first : display.strikes first = (display.pixels.get firstCell == 1) := by
  have located : cellAt? 0 first = some firstCell :=
    (cellAt?_eq_some_iff (Nat.zero_le 1) (sprite.inside first List.mem_cons_self)).mpr firstPlaced
  rw [strikes, located, Option.any_some]

/-- The first point is always drawn in its place. -/
theorem get_flipMoving_first :
    (display.flipMoving (first :: second :: rest)).pixels.get firstCell =
      display.pixels.get firstCell ^^^ 1 := by
  have before := (List.pairwise_cons.mp sprite.ordered).1 second List.mem_cons_self
  have drawn : first ∈ display.anchored (first :: second :: rest) := by
    unfold anchored
    split
    · exact List.mem_cons_self
    · exact List.mem_cons_self
  have anchored := sprite.sublist (display.anchored_sublist _)
  have listed : firstCell ∈ placed 0 (display.anchored (first :: second :: rest)) :=
    (mem_placed_corner (Nat.zero_le 1) anchored).mpr ⟨first, drawn, firstPlaced⟩
  have early : firstCell.val ≤ rank second := by omega
  rw [display.get_flipMoving sprite early, get_flip_of_mem _ (anchored.nodup_placed 0) listed]

variable {secondCell : Fin 2048} (secondPlaced : secondCell.val = rank second)

include secondPlaced

/-- The second point is drawn in its place unless the first one strikes. -/
theorem get_flipMoving_second :
    (display.flipMoving (first :: second :: rest)).pixels.get secondCell =
      if display.pixels.get firstCell = 1 then display.pixels.get secondCell
      else display.pixels.get secondCell ^^^ 1 := by
  have before := (List.pairwise_cons.mp sprite.ordered).1 second List.mem_cons_self
  have anchored := sprite.sublist (display.anchored_sublist _)
  have struck := display.strikes_first sprite firstPlaced
  have early : secondCell.val ≤ rank second := Nat.le_of_eq secondPlaced
  rw [display.get_flipMoving sprite early]
  by_cases lit : display.pixels.get firstCell = 1
  · have alone : secondCell ∉ placed 0 (display.anchored (first :: second :: rest)) := by
      rw [mem_placed_corner (Nat.zero_le 1) anchored, Display.anchored, struck, lit]
      simp only [beq_self_eq_true, if_true, List.mem_singleton, exists_eq_left]
      omega
    rw [get_flip_of_notMem _ alone, if_pos lit]
  · have follows : second ∈ display.anchored (first :: second :: rest) := by
      rw [Display.anchored, struck, if_neg (by simpa using lit), Display.anchored]
      split
      · exact List.mem_cons_of_mem first List.mem_cons_self
      · exact List.mem_cons_of_mem first List.mem_cons_self
    have listed : secondCell ∈ placed 0 (display.anchored (first :: second :: rest)) :=
      (mem_placed_corner (Nat.zero_le 1) anchored).mpr ⟨second, follows, secondPlaced⟩
    rw [get_flip_of_mem _ (anchored.nodup_placed 0) listed, if_neg lit]

/-- Exactly one of two drawings finds the first pixel lit, so that the second pixel is drawn in its
place only once. -/
theorem flipMoving_twice_ne (binary : display.Binary) :
    ((display.flipMoving (first :: second :: rest)).flipMoving
      (first :: second :: rest)).pixels.get secondCell ≠ display.pixels.get secondCell := by
  rw [get_flipMoving_second _ sprite firstPlaced secondPlaced,
    display.get_flipMoving_first sprite firstPlaced,
    display.get_flipMoving_second sprite firstPlaced secondPlaced]
  rcases binary.get firstCell with dark | bright
  · rw [dark, if_pos (by decide), if_neg (by decide)]
    exact toggled_ne _
  · rw [bright, if_neg (by decide), if_pos rfl]
    exact toggled_ne _

end FirstPoints

/-- A moving origin spoils the second drawing of every sprite with two points or more. -/
theorem flipMoving_twice_iff {display : Display} (binary : display.Binary)
    {offsets : List (Nat × Nat)} (sprite : IsSprite offsets) :
    (display.flipMoving offsets).flipMoving offsets = display ↔ offsets.length ≤ 1 := by
  constructor
  · intro restored
    match offsets, sprite with
    | [], _ => exact Nat.zero_le 1
    | [offset], _ => exact Nat.le_refl 1
    | first :: second :: rest, sprite =>
        obtain ⟨firstCell, firstPlaced⟩ := exists_cell_of_rank
          (sprite.inside first List.mem_cons_self)
        obtain ⟨secondCell, secondPlaced⟩ := exists_cell_of_rank
          (sprite.inside second (List.mem_cons_of_mem first List.mem_cons_self))
        have spoiled := display.flipMoving_twice_ne sprite firstPlaced secondPlaced binary
        rw [restored] at spoiled
        exact absurd rfl spoiled
  · intro short
    rw [flipMoving_of_short _ short, flipMoving_of_short _ short, flip_flip]

end Display

namespace Machine

/-- A sprite whose origin is the flag is drawn with a moving origin. -/
theorem display_drawPixels_flag {machine : Machine} (cleared : machine.register flagRegister = 0)
    {offsets : List (Nat × Nat)} (sprite : IsSprite offsets) :
    (machine.drawPixels flagRegister offsets).display = machine.display.flipMoving offsets := by
  have corner : (machine.register flagRegister).toNat = 0 := congrArg UInt8.toNat cleared
  have begun : machine.drawPixels flagRegister (machine.display.anchored offsets) =
      machine.stamp (placed 0 (machine.display.anchored offsets)) := by
    rw [drawPixels_eq_stamp, corner]
    · exact (sprite.sublist (machine.display.anchored_sublist offsets)).nodup_placed _
    · intro _ struck
      rw [corner, machine.display.anchored_still offsets] at struck
      exact absurd struck Bool.false_ne_true
  have drawn : machine.drawPixels flagRegister offsets =
      (machine.stamp (placed 0 (machine.display.anchored offsets))).drawPixels flagRegister
        (machine.display.shifted offsets) := by
    rw [← begun, ← drawPixels_append, Display.anchored_append_shifted]
  rw [drawn, Display.flipMoving]
  by_cases moved : machine.display.shifted offsets = []
  · rw [moved]
    exact machine.display_stamp _
  · have one : (machine.stamp (placed 0 (machine.display.anchored offsets))).register
        flagRegister = 1 := by
      rw [register_stamp, if_pos ⟨machine.display.anchored_struck moved, rfl⟩]
    rw [drawPixels_eq_stamp, one, display_stamp, display_stamp]
    · rfl
    · exact (sprite.sublist (machine.display.shifted_sublist offsets)).nodup_placed _
    · exact fun _ _ => one

section Redrawing

variable {machine : Machine} {opcode : Opcode} (draws : opcode.digit 3 = 0xD)
  (fits : machine.index.toNat + opcode.digit 0 ≤ 4096)

include draws fits

theorem index_execute_of_draw : (machine.execute opcode).index = machine.index := by
  rw [execute_of_draw draws fits, draw, index_drawPixels]
  rfl

theorem memory_execute_of_draw : (machine.execute opcode).memory = machine.memory := by
  rw [execute_of_draw draws fits, draw, memory_drawPixels]
  rfl

theorem display_execute_of_flag_draw (moves : opcode.y = flagRegister) :
    (machine.execute opcode).display =
      machine.display.flipMoving
        (spriteOffsets machine.memory machine.index.toNat (opcode.digit 0)) := by
  have small : opcode.digit 0 ≤ 16 := Nat.le_of_lt (opcode.digit_lt 0)
  have cleared : (machine.advance.setRegister flagRegister 0).register flagRegister = 0 := by
    rw [register_setRegister, if_pos rfl]
  rw [execute_of_draw draws fits, draw, moves,
    display_drawPixels_flag cleared (isSprite_spriteOffsets small)]
  rfl

end Redrawing

end Machine

/-- A sprite drawn twice leaves the picture as it was when its origin is not the flag. An origin in
the flag moves with the first erased pixel, and then only a sprite of at most one point is restored.
-/
theorem redraw_restores_unless_origin_moves (machine : Machine) (opcode : Opcode)
    (draws : opcode.digit 3 = 0xD) (fits : machine.index.toNat + opcode.digit 0 ≤ 4096) :
    let once := machine.execute opcode
    let twice := once.execute opcode
    let sprite := spriteOffsets machine.memory machine.index.toNat (opcode.digit 0)
    (opcode.y ≠ flagRegister →
      once.display =
          machine.display.flip
            (machine.spriteCells (machine.register opcode.y).toNat (opcode.digit 0)) ∧
        twice.display = machine.display) ∧
      (opcode.y = flagRegister →
        once.display = machine.display.flipMoving sprite ∧
          twice.display = once.display.flipMoving sprite ∧
          (machine.display.Binary → (twice.display = machine.display ↔ sprite.length ≤ 1))) := by
  intro once twice sprite
  have index : once.index = machine.index := Machine.index_execute_of_draw draws fits
  have memory : once.memory = machine.memory := Machine.memory_execute_of_draw draws fits
  have again : once.index.toNat + opcode.digit 0 ≤ 4096 := by rwa [index]
  have same : spriteOffsets once.memory once.index.toNat (opcode.digit 0) = sprite := by
    rw [index, memory]
  constructor
  · intro still
    have first : once.display = _ := Machine.display_execute_of_still_draw draws fits still
    have second : twice.display = _ := Machine.display_execute_of_still_draw draws again still
    have origin : once.register opcode.y = machine.register opcode.y :=
      Machine.register_execute_of_still_draw draws fits still
    refine ⟨first, ?_⟩
    rw [second, Machine.spriteCells, same, origin, first]
    exact Display.flip_flip _ _
  · intro moves
    have small : opcode.digit 0 ≤ 16 := Nat.le_of_lt (opcode.digit_lt 0)
    have first : once.display = machine.display.flipMoving sprite :=
      Machine.display_execute_of_flag_draw draws fits moves
    have second : twice.display = once.display.flipMoving sprite := by
      rw [← same]
      exact Machine.display_execute_of_flag_draw draws again moves
    refine ⟨first, second, ?_⟩
    intro binary
    rw [second, first]
    exact Display.flipMoving_twice_iff binary (isSprite_spriteOffsets small)

/-- A sprite of two points is erased by its second drawing. -/
theorem redraw_restores_pair :
    let machine := { Machine.fresh (MersenneTwister.seeded 0) with
      memory := Memory.zeroed.write 0 0xC0 }
    let once := machine.execute 0xD011
    once.display.pixel 1 0 = 1 ∧ (once.execute 0xD011).display = Display.blank := by
  intro machine once
  have restored := redraw_restores_unless_origin_moves machine 0xD011 (by decide) (by decide)
  exact ⟨by decide +kernel, (restored.1 (by decide)).2⟩

/-- The same sprite is not erased when its origin is the flag. The first pixel is, and it moves the
second one away. -/
theorem redraw_through_flag_leaves_trace :
    let machine := { Machine.fresh (MersenneTwister.seeded 0) with
      memory := Memory.zeroed.write 0 0xC0 }
    let twice := (machine.execute 0xD0F1).execute 0xD0F1
    machine.display = Display.blank ∧ twice.display.pixel 0 0 = 0 ∧
      twice.display.pixel 1 0 = 1 ∧ twice.display.pixel 2 1 = 1 := by
  intro machine twice
  exact ⟨rfl, by decide +kernel⟩

end Chip8
