import Chip8.Proofs.Toggles
import Chip8.Proofs.Verdict

/-!
This file holds the drawing of a sprite. While its origin stays where it is, a sprite is stamped
onto the picture: no two of its points share a cell, so that each cell is toggled at most once and
the flag tells whether one of them was lit.
-/

namespace Chip8

section Offsets

variable {memory : Memory} {address height : Nat}

theorem mem_spriteColumns {pattern : UInt8} {column : Nat} :
    column ∈ spriteColumns pattern ↔
      column < 8 ∧ pattern.toNat.testBit (7 - column) = true := by
  simp [spriteColumns]

theorem mem_spriteOffsets {column row : Nat} :
    (column, row) ∈ spriteOffsets memory address height ↔
      row < height ∧ column < 8 ∧
        (memory.read (address + row)).toNat.testBit (7 - column) = true := by
  simp only [spriteOffsets, List.mem_flatMap, List.mem_range, List.mem_map, Prod.mk.injEq,
    mem_spriteColumns]
  constructor
  · rintro ⟨line, inside, place, ⟨within, set⟩, rfl, rfl⟩
    exact ⟨inside, within, set⟩
  · intro ⟨inside, within, set⟩
    exact ⟨row, inside, column, ⟨within, set⟩, rfl, rfl⟩

/-- A point stands at its rank when its origin is the upper left corner. -/
def rank (offset : Nat × Nat) : Nat :=
  offset.1 + 64 * offset.2

/-- Rows are read from the top, and each row from the left. -/
theorem rank_spriteOffsets :
    (spriteOffsets memory address height).Pairwise fun first second =>
      rank first < rank second := by
  refine List.pairwise_flatMap.mpr ⟨?_, ?_⟩
  · intro row _
    have columns : (spriteColumns (memory.read (address + row))).Pairwise (· < ·) :=
      List.pairwise_lt_range.filter _
    refine List.pairwise_map.mpr (columns.imp ?_)
    intro first second before
    simp only [rank]
    omega
  · refine List.pairwise_lt_range.imp ?_
    intro upper lower above first inUpper second inLower
    obtain ⟨firstColumn, firstSet, rfl⟩ := List.mem_map.mp inUpper
    obtain ⟨secondColumn, _, rfl⟩ := List.mem_map.mp inLower
    have within := (mem_spriteColumns.mp firstSet).1
    simp only [rank]
    omega

end Offsets

/-- The points of a sprite lie in a block of eight columns and sixteen rows. -/
structure IsSprite (offsets : List (Nat × Nat)) : Prop where
  inside : ∀ offset ∈ offsets, offset.1 < 8 ∧ offset.2 < 16
  ordered : offsets.Pairwise fun first second => rank first < rank second

theorem isSprite_spriteOffsets {memory : Memory} {address height : Nat} (small : height ≤ 16) :
    IsSprite (spriteOffsets memory address height) where
  inside := by
    intro offset member
    obtain ⟨rowInside, columnInside, _⟩ := mem_spriteOffsets.mp member
    exact ⟨columnInside, Nat.lt_of_lt_of_le rowInside small⟩
  ordered := rank_spriteOffsets

theorem IsSprite.sublist {offsets others : List (Nat × Nat)} (sprite : IsSprite offsets)
    (part : others.Sublist offsets) : IsSprite others where
  inside := fun offset member => sprite.inside offset (part.mem member)
  ordered := sprite.ordered.sublist part

/-- A point is placed from one origin on both axes. -/
def cellAt? (origin : Nat) (offset : Nat × Nat) : Option (Fin 2048) :=
  Display.cell? ↑(origin + offset.1) ↑(origin + offset.2)

def placed (origin : Nat) (offsets : List (Nat × Nat)) : List (Fin 2048) :=
  offsets.filterMap (cellAt? origin)

/-- Two points of a sprite are too close to be turned back onto each other. -/
theorem cellAt?_apart {origin : Nat} {first second : Nat × Nat} {cell : Fin 2048}
    (firstPlaced : cellAt? origin first = some cell)
    (secondPlaced : cellAt? origin second = some cell)
    (columns : first.1 < 8 ∧ second.1 < 8) (rows : first.2 < 16 ∧ second.2 < 16) :
    first = second := by
  obtain ⟨firstColumn, firstRow, one⟩ := Display.cell?_eq_some_iff.mp firstPlaced
  obtain ⟨secondColumn, secondRow, other⟩ := Display.cell?_eq_some_iff.mp secondPlaced
  have sameColumn : Display.turnBack Display.width (origin + first.1) =
      Display.turnBack Display.width (origin + second.1) := by omega
  have sameRow : Display.turnBack Display.height (origin + first.2) =
      Display.turnBack Display.height (origin + second.2) := by omega
  have columnBound : first.1 < Display.width ∧ second.1 < Display.width := by
    simp only [Display.width]
    omega
  have rowBound : first.2 < Display.height ∧ second.2 < Display.height := by
    simp only [Display.height]
    omega
  exact Prod.ext (Display.turnBack_injective columnBound sameColumn)
    (Display.turnBack_injective rowBound sameRow)

/-- No two points of a sprite share a cell, wherever its origin is. -/
theorem IsSprite.nodup_placed {offsets : List (Nat × Nat)} (sprite : IsSprite offsets)
    (origin : Nat) : (placed origin offsets).Nodup := by
  refine List.pairwise_filterMap.mpr (sprite.ordered.imp_of_mem ?_)
  intro first second firstSet secondSet before cell firstPlaced other secondPlaced same
  subst same
  obtain ⟨firstColumn, firstRow⟩ := sprite.inside first firstSet
  obtain ⟨secondColumn, secondRow⟩ := sprite.inside second secondSet
  have equal := cellAt?_apart firstPlaced secondPlaced ⟨firstColumn, secondColumn⟩
    ⟨firstRow, secondRow⟩
  subst equal
  exact Nat.lt_irrefl _ before

namespace Machine

/-- All cells are toggled, and the flag is set when a lit cell was among them. -/
def stamp (machine : Machine) (cells : List (Fin 2048)) : Machine :=
  let flipped := { machine with display := machine.display.flip cells }
  if machine.display.meets cells then flipped.setRegister flagRegister 1 else flipped

section Stamping

variable (machine : Machine)

theorem display_stamp (cells : List (Fin 2048)) :
    (machine.stamp cells).display = machine.display.flip cells := by
  unfold stamp
  split <;> rfl

theorem register_stamp (cells : List (Fin 2048)) (query : Register) :
    (machine.stamp cells).register query =
      if machine.display.meets cells = true ∧ query = flagRegister then 1
      else machine.register query := by
  unfold stamp
  by_cases met : machine.display.meets cells = true
  · rw [if_pos met, register_setRegister]
    simp [met, register, eq_comm]
  · rw [if_neg met, if_neg (fun both => met both.1)]
    rfl

theorem setRegister_comm {first second : Register} (apart : first ≠ second)
    (firstValue secondValue : UInt8) :
    (machine.setRegister first firstValue).setRegister second secondValue =
      (machine.setRegister second secondValue).setRegister first firstValue := by
  have places : first.val ≠ second.val := fun same => apart (Fin.ext same)
  simp only [setRegister, Vector.set_comm _ _ places]

theorem stamp_setRegister {target : Register} (notFlag : target ≠ flagRegister) (value : UInt8)
    (cells : List (Fin 2048)) :
    (machine.setRegister target value).stamp cells =
      (machine.stamp cells).setRegister target value := by
  have sameDisplay : (machine.setRegister target value).display = machine.display := rfl
  unfold stamp
  dsimp only
  rw [sameDisplay]
  split
  · exact setRegister_comm { machine with display := machine.display.flip cells } notFlag value 1
  · rfl

/-- A stamp may be made cell by cell. -/
theorem stamp_cons {cell : Fin 2048} {rest : List (Fin 2048)} (apart : cell ∉ rest) :
    machine.stamp (cell :: rest) = (machine.stamp [cell]).stamp rest := by
  have single : machine.display.meets [cell] = (machine.display.pixels.get cell == 1) := by
    simp [Display.meets]
  have flipped : machine.display.flip [cell] = (machine.display.toggleCell cell).1 := rfl
  unfold stamp
  dsimp only
  rw [machine.display.meets_cons apart, single, flipped, Display.flip_cons]
  cases lit : machine.display.pixels.get cell == 1
  · rfl
  · by_cases met : (machine.display.toggleCell cell).1.meets rest = true
    · simp [met, setRegister]
    · simp [met, setRegister]

/-- A pixel is stamped at its cell, or it is lost. -/
theorem drawPixel_eq_stamp (origin : Register) (offset : Nat × Nat) :
    machine.drawPixel origin offset =
      machine.stamp (cellAt? (machine.register origin).toNat offset).toList := by
  cases located : cellAt? (machine.register origin).toNat offset with
  | none =>
      have lost : machine.display.toggle ↑((machine.register origin).toNat + offset.1)
          ↑((machine.register origin).toNat + offset.2) = (machine.display, false) := by
        rw [Display.toggle, show Display.cell? _ _ = none from located]
      simp only [drawPixel, lost]
      rfl
  | some cell =>
      have hit : machine.display.toggle ↑((machine.register origin).toNat + offset.1)
          ↑((machine.register origin).toNat + offset.2) = machine.display.toggleCell cell := by
        rw [Display.toggle, show Display.cell? _ _ = some cell from located]
      simp only [drawPixel, hit, Display.erased_toggleCell, stamp, Option.toList_some,
        Display.meets, List.any_cons, List.any_nil, Bool.or_false]
      rfl

theorem register_stamp_of_still {cells : List (Fin 2048)} {origin : Register}
    (still : origin = flagRegister → machine.display.meets cells = true →
      machine.register origin = 1) :
    (machine.stamp cells).register origin = machine.register origin := by
  rw [register_stamp]
  split
  · rename_i moved
    exact (still moved.2 moved.1).symm
  · rfl

/-- A sprite is stamped when its origin does not move before the last pixel. It moves when it is the
flag and a lit cell sets the flag anew. -/
theorem drawPixels_eq_stamp {origin : Register} {offsets : List (Nat × Nat)}
    (apart : (placed (machine.register origin).toNat offsets).Nodup)
    (still : origin = flagRegister →
      machine.display.meets (placed (machine.register origin).toNat offsets.dropLast) = true →
      machine.register origin = 1) :
    machine.drawPixels origin offsets =
      machine.stamp (placed (machine.register origin).toNat offsets) := by
  induction offsets generalizing machine with
  | nil => rfl
  | cons offset rest inductionHypothesis =>
      have drawn : machine.drawPixels origin (offset :: rest) =
          (machine.drawPixel origin offset).drawPixels origin rest := rfl
      rw [drawn, drawPixel_eq_stamp]
      cases located : cellAt? (machine.register origin).toNat offset with
      | none =>
          have lost (others : List (Nat × Nat)) :
              placed (machine.register origin).toNat (offset :: others) =
                placed (machine.register origin).toNat others :=
            List.filterMap_cons_none located
          rw [lost] at apart ⊢
          refine inductionHypothesis machine apart fun same met => still same ?_
          cases rest with
          | nil => simp [placed, Display.meets] at met
          | cons next others => rw [List.dropLast_cons_cons, lost]; exact met
      | some cell =>
          have hit (others : List (Nat × Nat)) :
              placed (machine.register origin).toNat (offset :: others) =
                cell :: placed (machine.register origin).toNat others :=
            List.filterMap_cons_some located
          rw [hit] at apart ⊢
          obtain ⟨absent, restApart⟩ := List.nodup_cons.mp apart
          rw [Option.toList_some, machine.stamp_cons absent]
          cases rest with
          | nil => rfl
          | cons next others =>
              -- A pixel follows, so that this one must leave the origin where it is.
              have earlier : cell ∉ placed (machine.register origin).toNat
                  (next :: others).dropLast := fun member =>
                absent (((List.dropLast_sublist _).filterMap _).mem member)
              rw [List.dropLast_cons_cons, hit, machine.display.meets_cons earlier,
                Bool.or_eq_true] at still
              have fixed : (machine.stamp [cell]).register origin = machine.register origin :=
                machine.register_stamp_of_still fun same met =>
                  still same (.inl (by simpa [Display.meets] using met))
              have continued := inductionHypothesis (machine.stamp [cell])
              rw [fixed, display_stamp] at continued
              exact continued restApart fun same met => still same (.inr met)

end Stamping

/-- The cells that a sprite takes when it is placed from an origin. -/
def spriteCells (machine : Machine) (origin height : Nat) : List (Fin 2048) :=
  placed origin (spriteOffsets machine.memory machine.index.toNat height)

theorem nodup_spriteCells (machine : Machine) (origin : Nat) {height : Nat} (small : height ≤ 16) :
    (machine.spriteCells origin height).Nodup :=
  (isSprite_spriteOffsets small).nodup_placed origin

section Execution

variable {machine : Machine} {opcode : Opcode} (draws : opcode.digit 3 = 0xD)
  (fits : machine.index.toNat + opcode.digit 0 ≤ 4096)

include draws fits

theorem execute_of_draw :
    machine.execute opcode = machine.advance.draw opcode.y (opcode.digit 0) := by
  have family : opcode.family = 0xD := Opcode.family_eq draws
  have decoded : Instruction.decode? opcode = some (.draw opcode.y opcode.nibble) := by
    simp only [Instruction.decode?, family]
  have clear : (Instruction.draw opcode.y opcode.nibble).fault? machine = none := by
    rw [← opcode.nibble_val] at fits
    exact if_pos fits
  rw [execute_of_ok (verdict_eq_ok.mpr ⟨decoded, clear⟩), ← opcode.nibble_val]
  rfl

/-- An origin outside the flag register does not move while the sprite is drawn. -/
theorem execute_of_still_draw (still : opcode.y ≠ flagRegister) :
    machine.execute opcode =
      (machine.advance.setRegister flagRegister 0).stamp
        (machine.spriteCells (machine.register opcode.y).toNat (opcode.digit 0)) := by
  have origin : (machine.advance.setRegister flagRegister 0).register opcode.y =
      machine.register opcode.y := by
    rw [register_setRegister, if_neg still.symm]
    rfl
  have small : opcode.digit 0 ≤ 16 := Nat.le_of_lt (opcode.digit_lt 0)
  rw [execute_of_draw draws fits, draw, drawPixels_eq_stamp, origin]
  · rfl
  · exact machine.advance.nodup_spriteCells _ small
  · exact fun moves => absurd moves still

theorem display_execute_of_still_draw (still : opcode.y ≠ flagRegister) :
    (machine.execute opcode).display =
      machine.display.flip
        (machine.spriteCells (machine.register opcode.y).toNat (opcode.digit 0)) := by
  rw [execute_of_still_draw draws fits still, display_stamp]
  rfl

theorem flag_execute_of_still_draw (still : opcode.y ≠ flagRegister) :
    (machine.execute opcode).register flagRegister =
      if machine.display.meets
          (machine.spriteCells (machine.register opcode.y).toNat (opcode.digit 0)) then 1
      else 0 := by
  have sameDisplay : (machine.advance.setRegister flagRegister 0).display = machine.display := rfl
  rw [execute_of_still_draw draws fits still, register_stamp, register_setRegister, if_pos rfl,
    sameDisplay]
  simp only [and_true]

theorem register_execute_of_still_draw (still : opcode.y ≠ flagRegister) :
    (machine.execute opcode).register opcode.y = machine.register opcode.y := by
  rw [execute_of_still_draw draws fits still, register_stamp, if_neg (fun both => still both.2),
    register_setRegister, if_neg still.symm]
  rfl

end Execution

/-- The cells of a sprite lie at its set bits. The highest bit of a byte is its leftmost column, and
a column or a row past the screen is turned back once. -/
def SpriteCovers (machine : Machine) (origin height column row : Nat) : Prop :=
  ∃ line < height, ∃ place < 8,
    (machine.memory.read (machine.index.toNat + line)).toNat.testBit (7 - place) = true ∧
      Display.turnBack 64 (origin + place) = column ∧ Display.turnBack 32 (origin + line) = row

instance (machine : Machine) (origin height column row : Nat) :
    Decidable (machine.SpriteCovers origin height column row) :=
  inferInstanceAs (Decidable (∃ line < height, ∃ place < 8, _ ∧ _ ∧ _))

/-- Cells off the screen have no place in the picture. -/
theorem mem_spriteCells_iff {machine : Machine} {origin height column row : Nat}
    (columnInside : column < 64) (rowInside : row < 32) :
    Display.cellOf columnInside rowInside ∈ machine.spriteCells origin height ↔
      machine.SpriteCovers origin height column row := by
  simp only [spriteCells, placed, List.mem_filterMap, Prod.exists, mem_spriteOffsets, cellAt?,
    Display.cell?_eq_some_iff, Display.cellOf, Display.width, Display.height, SpriteCovers]
  constructor
  · rintro ⟨place, line, ⟨inside, within, set⟩, columnHit, rowHit, cell⟩
    exact ⟨line, inside, place, within, set, by omega, by omega⟩
  · rintro ⟨line, inside, place, within, set, rfl, rfl⟩
    exact ⟨place, line, ⟨inside, within, set⟩, columnInside, rowInside, rfl⟩

/-- A collision is a lit cell under the sprite. -/
theorem meets_spriteCells_iff {machine : Machine} {origin height : Nat} :
    machine.display.meets (machine.spriteCells origin height) = true ↔
      ∃ column < 64, ∃ row < 32, machine.SpriteCovers origin height column row ∧
        machine.display.pixel column row = 1 := by
  rw [Display.meets_iff]
  constructor
  · rintro ⟨cell, member, lit⟩
    have columnInside : cell.val % 64 < 64 := Nat.mod_lt _ (by decide)
    have rowInside : cell.val / 64 < 32 := by omega
    have whole : Display.cellOf columnInside rowInside = cell :=
      Fin.ext (Nat.mod_add_div _ _)
    refine ⟨_, columnInside, _, rowInside, ?_, ?_⟩
    · rw [← mem_spriteCells_iff columnInside rowInside, whole]
      exact member
    · rw [Display.pixel_of_cell]
      exact lit
  · rintro ⟨column, columnInside, row, rowInside, covered, lit⟩
    rw [Display.pixel_eq_get _ columnInside rowInside] at lit
    exact ⟨_, (mem_spriteCells_iff columnInside rowInside).mpr covered, lit⟩

theorem pixel_flip_spriteCells {machine : Machine} {origin height column row : Nat}
    (small : height ≤ 16) (columnInside : column < 64) (rowInside : row < 32) :
    (machine.display.flip (machine.spriteCells origin height)).pixel column row =
      machine.display.pixel column row ^^^
        (if machine.SpriteCovers origin height column row then 1 else 0) := by
  rw [Display.pixel_eq_get _ columnInside rowInside, Display.pixel_eq_get _ columnInside rowInside]
  by_cases covered : machine.SpriteCovers origin height column row
  · have listed := (mem_spriteCells_iff columnInside rowInside).mpr covered
    rw [Display.get_flip_of_mem _ (machine.nodup_spriteCells origin small) listed, if_pos covered]
  · have absent := mt (mem_spriteCells_iff columnInside rowInside).mp covered
    rw [Display.get_flip_of_notMem _ absent, if_neg covered, UInt8.xor_zero]

theorem content_stamp (machine : Machine) (cells : List (Fin 2048)) {place : Place}
    (notDisplay : place ≠ .display) (notFlag : place ≠ .register flagRegister) :
    (machine.stamp cells).content place = machine.content place := by
  have flipped := machine.content_put_of_ne .display (machine.display.flip cells) notDisplay
  unfold stamp
  dsimp only
  split
  · exact (content_setRegister _ 1 notFlag).trans flipped
  · exact flipped

theorem content_advance (machine : Machine) {place : Place} (notCounter : place ≠ .pc)
    (notAddress : place ≠ .faultAddress) : machine.advance.content place = machine.content place :=
  ((machine.put .faultAddress machine.pc).content_put_of_ne .pc (machine.pc + 2) notCounter).trans
    (machine.content_put_of_ne .faultAddress machine.pc notAddress)

/-- A drawn sprite changes the picture and the flag, and the instruction is passed. -/
structure SpriteDrawn (before after : Machine) (origin height : Nat) : Prop where
  picture : ∀ column < 64, ∀ row < 32,
    after.display.pixel column row =
      before.display.pixel column row ^^^
        (if before.SpriteCovers origin height column row then 1 else 0)
  flag : after.register flagRegister = 0 ∨ after.register flagRegister = 1
  collision : after.register flagRegister = 1 ↔
    ∃ column < 64, ∃ row < 32, before.SpriteCovers origin height column row ∧
      before.display.pixel column row = 1
  lit : before.display.Binary →
    (after.register flagRegister = 1 ↔
      ∃ column < 64, ∃ row < 32, before.SpriteCovers origin height column row ∧
        before.display.lit column row = true)
  counter : after.pc = before.pc + 2
  address : after.faultAddress = before.pc
  elsewhere : ∀ place, place ∉ [.display, .register flagRegister, .pc, .faultAddress] →
    after.content place = before.content place

section Drawing

variable {machine : Machine} {opcode : Opcode} (draws : opcode.digit 3 = 0xD)
  (fits : machine.index.toNat + opcode.digit 0 ≤ 4096) (still : opcode.y ≠ flagRegister)

include draws fits still

theorem spriteDrawn_execute :
    machine.SpriteDrawn (machine.execute opcode) (machine.register opcode.y).toNat
      (opcode.digit 0) := by
  have small : opcode.digit 0 ≤ 16 := Nat.le_of_lt (opcode.digit_lt 0)
  have flagged := flag_execute_of_still_draw draws fits still
  have collides : (machine.execute opcode).register flagRegister = 1 ↔ _ :=
    calc
      (machine.execute opcode).register flagRegister = 1 ↔
          machine.display.meets
            (machine.spriteCells (machine.register opcode.y).toNat (opcode.digit 0)) = true := by
        rw [flagged, ite_eq_left_iff]
        simp
      _ ↔ _ := meets_spriteCells_iff
  constructor
  case picture =>
    intro column columnInside row rowInside
    rw [display_execute_of_still_draw draws fits still]
    exact pixel_flip_spriteCells small columnInside rowInside
  case flag =>
    rw [flagged]
    exact (ite_eq_or_eq _ 1 0).symm
  case collision => exact collides
  case lit =>
    intro binary
    rw [collides]
    constructor
    · rintro ⟨column, columnInside, row, rowInside, covered, one⟩
      exact ⟨column, columnInside, row, rowInside, covered,
        (binary.lit_iff columnInside rowInside).mpr one⟩
    · rintro ⟨column, columnInside, row, rowInside, covered, lit⟩
      exact ⟨column, columnInside, row, rowInside, covered,
        (binary.lit_iff columnInside rowInside).mp lit⟩
  case counter =>
    rw [execute_of_still_draw draws fits still]
    exact content_stamp _ _ (show Place.pc ≠ _ by decide) (show Place.pc ≠ _ by decide)
  case address => exact machine.faultAddress_execute opcode
  case elsewhere =>
    intro place outside
    simp only [List.mem_cons, List.not_mem_nil, or_false, not_or] at outside
    obtain ⟨notDisplay, notFlag, notCounter, notAddress⟩ := outside
    rw [execute_of_still_draw draws fits still, content_stamp _ _ notDisplay notFlag,
      content_setRegister _ 0 notFlag, content_advance _ notCounter notAddress]

/-- The flag is assigned before it could be read. -/
theorem execute_setRegister_flag (value : UInt8) :
    (machine.setRegister flagRegister value).execute opcode = machine.execute opcode := by
  have origin : (machine.setRegister flagRegister value).register opcode.y =
      machine.register opcode.y := by
    rw [register_setRegister, if_neg still.symm]
  have cleared : (machine.setRegister flagRegister value).advance.setRegister flagRegister 0 =
      machine.advance.setRegister flagRegister 0 := by
    simp [advance, setRegister]
  have altered := @execute_of_still_draw (machine.setRegister flagRegister value) opcode draws fits
    still
  rw [altered, execute_of_still_draw draws fits still, origin, cleared]
  rfl

/-- A register that is neither the origin nor the flag has no part in the drawing. -/
theorem execute_setRegister_of_ne {target : Register} (notOrigin : target ≠ opcode.y)
    (notFlag : target ≠ flagRegister) (value : UInt8) :
    (machine.setRegister target value).execute opcode =
      (machine.execute opcode).setRegister target value := by
  have origin : (machine.setRegister target value).register opcode.y =
      machine.register opcode.y := by
    rw [register_setRegister, if_neg notOrigin]
  have cleared : (machine.setRegister target value).advance.setRegister flagRegister 0 =
      (machine.advance.setRegister flagRegister 0).setRegister target value :=
    machine.advance.setRegister_comm notFlag value 0
  have altered := @execute_of_still_draw (machine.setRegister target value) opcode draws fits still
  rw [altered, execute_of_still_draw draws fits still, origin, cleared,
    stamp_setRegister _ notFlag]
  rfl

end Drawing

end Machine

/-- A sprite toggles exactly the cells that it covers, and the flag tells whether one of them was
lit. Neither the first register of its opcode nor the old flag has any influence. -/
theorem sprite_drawn_exactly (machine : Machine) (opcode : Opcode) (draws : opcode.digit 3 = 0xD)
    (still : opcode.y ≠ flagRegister) (fits : machine.index.toNat + opcode.digit 0 ≤ 4096) :
    machine.SpriteDrawn (machine.execute opcode) (machine.register opcode.y).toNat
        (opcode.digit 0) ∧
      (∀ value, (machine.setRegister flagRegister value).execute opcode =
        machine.execute opcode) ∧
      (opcode.x ≠ opcode.y → opcode.x ≠ flagRegister → ∀ value,
        (machine.setRegister opcode.x value).execute opcode =
          (machine.execute opcode).setRegister opcode.x value) := by
  refine ⟨Machine.spriteDrawn_execute draws fits still,
    Machine.execute_setRegister_flag draws fits still, ?_⟩
  intro notOrigin notFlag
  exact Machine.execute_setRegister_of_ne draws fits still notOrigin notFlag

/-- Five full rows at the lower right are turned back on both axes, and the last row is lost. -/
theorem sprite_drawn_over_corner :
    let machine := { Machine.fresh (MersenneTwister.seeded 0) with
      memory := Memory.zeroed.writeAll 0 [0xFF, 0xFF, 0xFF, 0xFF, 0xFF]
      registers := (Vector.replicate 16 0).set 2 60
      display := (Display.blank.toggle 3 28).1 }
    let drawn := machine.execute 0xD125
    drawn.register flagRegister = 1 ∧ drawn.display.pixel 3 28 = 0 ∧
      drawn.display.pixel 63 31 = 1 ∧ drawn.display.pixel 60 0 = 0 ∧ drawn.register 1 = 0 := by
  intro machine drawn
  have exactly := (sprite_drawn_exactly machine 0xD125 (by decide) (by decide) (by decide)).1
  have struck : machine.SpriteCovers 60 5 3 28 ∧ machine.display.pixel 3 28 = 1 := by
    decide +kernel
  refine ⟨exactly.collision.mpr ⟨3, by decide, 28, by decide, struck⟩, ?_, ?_, ?_,
    exactly.elsewhere (.register 1) (by decide)⟩
  · rw [exactly.picture 3 (by decide) 28 (by decide)]
    decide +kernel
  · rw [exactly.picture 63 (by decide) 31 (by decide)]
    decide +kernel
  · rw [exactly.picture 60 (by decide) 0 (by decide)]
    decide +kernel

end Chip8
