import Chip8.Proofs.Toggles
import Mathlib.Data.List.Forall2

/-!
This file holds the pictures that runs of edits leave. A cell shows the parity of its hits since the
picture was cleared, and as many cells are lit as hits have lit one without erasing it again.
-/

namespace Chip8

namespace Display

/-- A coordinate lands on a place of the screen, if need be after it was moved by the bound once. -/
def Lands (bound : Nat) (coordinate : Int) (place : Nat) : Prop :=
  place < bound ∧
    (bound ≤ coordinate ∧ coordinate - bound = place ∨
      coordinate < 0 ∧ coordinate + bound = place ∨ coordinate = place)

instance (bound : Nat) (coordinate : Int) (place : Nat) :
    Decidable (Lands bound coordinate place) :=
  inferInstanceAs (Decidable (_ ∧ _))

theorem lands_iff {bound : Nat} {coordinate : Int} {place : Nat} :
    Lands bound coordinate place ↔ place < bound ∧ wrapOnce bound coordinate = place := by
  unfold Lands wrapOnce
  split
  · omega
  · split <;> omega

theorem cell?_eq_cellOf_iff {x y : Int} {column row : Nat} (columnInside : column < 64)
    (rowInside : row < 32) :
    cell? x y = some (cellOf columnInside rowInside) ↔
      Lands width x column ∧ Lands height y row := by
  simp only [cell?, lands_iff]
  have screenWidth : width = 64 := rfl
  have screenHeight : height = 32 := rfl
  split
  · simp only [Option.some.injEq, cellOf, Fin.mk.injEq]
    omega
  · simp only [reduceCtorEq, false_iff]
    omega

theorem litCount_blank : blank.litCount = 0 := by
  rw [litCount, Vector.count_eq_zero]
  intro lit
  exact absurd (Vector.eq_of_mem_replicate lit) (by decide)

/-- An erased cell was lit and is dark, and any other toggled cell is lit instead. -/
theorem litCount_toggleCell {display : Display} {cell : Fin 2048}
    (binary : display.pixels.get cell = 0 ∨ display.pixels.get cell = 1) :
    (display.toggleCell cell).1.litCount + (if (display.toggleCell cell).2 = true then 1 else 0) =
      display.litCount + (if (display.toggleCell cell).2 = false then 1 else 0) := by
  have counted : (display.toggleCell cell).1.litCount =
      (display.litCount - if (display.pixels.get cell == 1) = true then 1 else 0) +
        if (display.pixels.get cell ^^^ 1 == 1) = true then 1 else 0 :=
    Vector.count_set cell.isLt
  rw [counted, erased_toggleCell]
  rcases binary with dark | bright
  · rw [dark]
    rfl
  · have listed : (1 : UInt8) ∈ display.pixels := bright ▸ Vector.getElem_mem cell.isLt
    have lighted : 0 < display.litCount := Vector.count_pos_iff.mpr listed
    rw [bright]
    have erased : ((1 : UInt8) ^^^ 1 == 1) = false := rfl
    simp only [erased, beq_self_eq_true, if_true, Bool.true_eq_false, Bool.false_eq_true, if_false]
    omega

theorem get_flip_blank (cells : List (Fin 2048)) (cell : Fin 2048) :
    (blank.flip cells).pixels.get cell = if cells.count cell % 2 = 1 then 1 else 0 := by
  have dark : blank.pixels.get cell = 0 :=
    (pixel_of_cell blank cell).symm.trans (pixel_blank _ _)
  rw [get_flip, dark]
  rfl

theorem flip_append_singleton (display : Display) (cells : List (Fin 2048)) (cell : Fin 2048) :
    display.flip (cells ++ [cell]) = ((display.flip cells).toggleCell cell).1 := by
  rw [flip, List.foldl_append]
  rfl

/-- A picture is changed at one point, or it is cleared. -/
inductive Edit
  | toggle (x y : Int)
  | clear
deriving DecidableEq

namespace Edit

/-- A cell is hit by a point whose coordinates both land on it. -/
def Hits (edit : Edit) (column row : Nat) : Prop :=
  match edit with
  | .toggle x y => Lands width x column ∧ Lands height y row
  | .clear => False

instance (edit : Edit) (column row : Nat) : Decidable (edit.Hits column row) :=
  match edit with
  | .toggle _ _ => inferInstanceAs (Decidable (_ ∧ _))
  | .clear => inferInstanceAs (Decidable False)

def target? : Edit → Option (Fin 2048)
  | .toggle x y => cell? x y
  | .clear => none

theorem hits_iff {edit : Edit} {column row : Nat} (columnInside : column < 64)
    (rowInside : row < 32) :
    edit.Hits column row ↔ edit.target? = some (cellOf columnInside rowInside) := by
  cases edit with
  | toggle x y => exact (cell?_eq_cellOf_iff columnInside rowInside).symm
  | clear => simp only [Hits, target?, reduceCtorEq]

theorem Hits.inside {edit : Edit} {column row : Nat} (hits : edit.Hits column row) :
    column < 64 ∧ row < 32 := by
  cases edit with
  | toggle x y => exact ⟨hits.1.1, hits.2.1⟩
  | clear => exact hits.elim

theorem exists_hits_iff {edit : Edit} :
    (∃ column row, edit.Hits column row) ↔ edit.target?.isSome = true := by
  rw [Option.isSome_iff_exists]
  constructor
  · rintro ⟨column, row, hits⟩
    obtain ⟨columnInside, rowInside⟩ := hits.inside
    exact ⟨_, (hits_iff columnInside rowInside).mp hits⟩
  · rintro ⟨cell, found⟩
    have inside := cell.isLt
    have columnInside : cell.val % 64 < 64 := Nat.mod_lt _ (by decide)
    have rowInside : cell.val / 64 < 32 := by omega
    have same : cell = cellOf columnInside rowInside := Fin.ext (Nat.mod_add_div _ _).symm
    exact ⟨_, _, (hits_iff columnInside rowInside).mpr (found.trans (congrArg some same))⟩

/-- An edit is on the screen when it hits a cell. -/
def OnScreen (edit : Edit) : Prop :=
  ∃ column row, edit.Hits column row

instance (edit : Edit) : Decidable edit.OnScreen :=
  decidable_of_iff _ exists_hits_iff.symm

end Edit

/-- A sketch is a picture with the edits since it was cleared, each with its answer. -/
structure Sketch where
  display : Display := blank
  edits : List (Edit × Bool) := []

namespace Sketch

def edit (sketch : Sketch) : Edit → Sketch
  | .toggle x y =>
      let (display, erased) := sketch.display.toggle x y
      ⟨display, sketch.edits ++ [(.toggle x y, erased)]⟩
  | .clear => {}

/-- A run of edits begins with a blank picture. -/
def ofEdits (edits : List Edit) : Sketch :=
  edits.foldl edit {}

def hits (sketch : Sketch) (column row : Nat) : Nat :=
  sketch.edits.countP fun entry => entry.1.Hits column row

/-- The hits that were given one answer. -/
def answers (sketch : Sketch) (erased : Bool) : Nat :=
  sketch.edits.countP fun entry => entry.1.OnScreen ∧ entry.2 = erased

/-- The cells that were hit, one after the other. -/
def targets (sketch : Sketch) : List (Fin 2048) :=
  sketch.edits.filterMap fun entry => entry.1.target?

theorem hits_eq_count (sketch : Sketch) {column row : Nat} (columnInside : column < 64)
    (rowInside : row < 32) :
    sketch.hits column row = sketch.targets.count (cellOf columnInside rowInside) := by
  rw [hits, targets, List.count, List.countP_filterMap]
  apply List.countP_congr
  intro entry _
  rw [decide_eq_true_iff, Edit.hits_iff columnInside rowInside]
  cases entry.1.target? with
  | none => simp
  | some cell => simp

section Toggled

variable (sketch : Sketch) (x y : Int)

theorem display_toggle :
    (sketch.edit (.toggle x y)).display = (sketch.display.toggle x y).1 := rfl

theorem targets_toggle :
    (sketch.edit (.toggle x y)).targets = sketch.targets ++ (cell? x y).toList := by
  simp only [targets, edit, List.filterMap_append]
  cases found : cell? x y <;> simp [Edit.target?, found]

theorem answers_toggle (erased : Bool) :
    (sketch.edit (.toggle x y)).answers erased = sketch.answers erased +
      if (cell? x y).isSome = true ∧ (sketch.display.toggle x y).2 = erased then 1 else 0 := by
  have onScreen : (Edit.toggle x y).OnScreen ↔ (cell? x y).isSome = true := Edit.exists_hits_iff
  simp only [answers, edit, List.countP_append, List.countP_singleton, onScreen,
    decide_eq_true_eq]

end Toggled

/-- The picture and the number of its lit cells are known from the edits. -/
structure Counted (sketch : Sketch) : Prop where
  picture : sketch.display = blank.flip sketch.targets
  light : sketch.display.litCount + sketch.answers true = sketch.answers false

namespace Counted

variable {sketch : Sketch}

theorem empty : ({} : Sketch).Counted := by
  have dark : ({} : Sketch).display.litCount = 0 := litCount_blank
  constructor
  · rfl
  · rw [dark]
    rfl

theorem binary (counted : sketch.Counted) (cell : Fin 2048) :
    sketch.display.pixels.get cell = 0 ∨ sketch.display.pixels.get cell = 1 := by
  rw [counted.picture, get_flip_blank]
  split
  · exact .inr rfl
  · exact .inl rfl

theorem get (counted : sketch.Counted) {column row : Nat} (columnInside : column < 64)
    (rowInside : row < 32) :
    sketch.display.pixels.get (cellOf columnInside rowInside) =
      if sketch.hits column row % 2 = 1 then 1 else 0 := by
  rw [counted.picture, get_flip_blank, sketch.hits_eq_count columnInside rowInside]

theorem toggle (counted : sketch.Counted) (x y : Int) : (sketch.edit (.toggle x y)).Counted := by
  have picture := sketch.display_toggle x y
  have targets := sketch.targets_toggle x y
  have answers := sketch.answers_toggle x y
  cases found : cell? x y with
  | none =>
      have missed : sketch.display.toggle x y = (sketch.display, false) := by
        rw [Display.toggle, found]
      rw [missed] at picture
      simp only [found, Option.toList_none, List.append_nil] at targets
      simp only [found, Option.isSome_none, Bool.false_eq_true, false_and, if_false,
        Nat.add_zero] at answers
      constructor
      · rw [picture, targets, counted.picture]
      · rw [picture, answers, answers, counted.light]
  | some cell =>
      have toggled : sketch.display.toggle x y = sketch.display.toggleCell cell := by
        rw [Display.toggle, found]
      rw [toggled] at picture
      simp only [found, Option.toList_some] at targets
      simp only [found, toggled, Option.isSome_some, true_and] at answers
      constructor
      · rw [picture, targets, flip_append_singleton, counted.picture]
      · have light := litCount_toggleCell (counted.binary cell)
        have before := counted.light
        rw [picture, answers, answers]
        omega

theorem edit (counted : sketch.Counted) : ∀ edit, (sketch.edit edit).Counted
  | .toggle x y => counted.toggle x y
  | .clear => empty

/-- The next hit of a cell erases it exactly when it was hit an odd number of times. -/
theorem erased_iff (counted : sketch.Counted) {x y : Int} {column row : Nat}
    (hits : (Edit.toggle x y).Hits column row) :
    (sketch.display.toggle x y).2 = true ↔ (sketch.hits column row + 1) % 2 = 0 := by
  obtain ⟨columnInside, rowInside⟩ := hits.inside
  have found : cell? x y = some (cellOf columnInside rowInside) :=
    (Edit.hits_iff columnInside rowInside).mp hits
  simp only [Display.toggle, found]
  rw [erased_toggleCell, beq_iff_eq, counted.get columnInside rowInside]
  split
  · exact iff_of_true rfl (by omega)
  · exact iff_of_false (by decide) (by omega)

end Counted

theorem counted_foldl {sketch : Sketch} (counted : sketch.Counted) (edits : List Edit) :
    (edits.foldl edit sketch).Counted := by
  induction edits generalizing sketch with
  | nil => exact counted
  | cons first rest inductionHypothesis => exact inductionHypothesis (counted.edit first)

theorem counted_ofEdits (edits : List Edit) : (ofEdits edits).Counted :=
  counted_foldl .empty edits

/-- Every edit but a clear is kept with its answer. -/
theorem edits_foldl (sketch : Sketch) {edits : List Edit} (kept : .clear ∉ edits) :
    (edits.foldl edit sketch).edits.map Prod.fst = sketch.edits.map Prod.fst ++ edits := by
  induction edits generalizing sketch with
  | nil => simp
  | cons first rest inductionHypothesis =>
      rw [List.mem_cons, not_or] at kept
      rw [List.foldl_cons, inductionHypothesis _ kept.2]
      cases first with
      | toggle x y => simp [edit]
      | clear => exact absurd rfl kept.1

theorem ofEdits_clear (lead rest : List Edit) :
    ofEdits (lead ++ .clear :: rest) = ofEdits rest := by
  rw [ofEdits, List.foldl_append, List.foldl_cons]
  rfl

/-- The edits of a sketch are those that came after the last clear. -/
theorem edits_ofEdits (edits : List Edit) :
    (ofEdits edits).edits.map Prod.fst = (edits.splitOn .clear).getLastD [] := by
  -- The induction goes from one clear to the next.
  by_cases cleared : .clear ∈ edits
  · obtain ⟨lead, rest, divided, unbroken⟩ := List.eq_append_cons_of_mem cleared
    have shorter : rest.length < edits.length := by simp [divided]; omega
    rw [divided, ofEdits_clear, edits_ofEdits rest,
      List.splitOn_append_cons_self_of_not_mem unbroken, List.getLastD_cons]
    cases parts : rest.splitOn .clear with
    | nil => exact absurd parts (List.splitOn_ne_nil _ _)
    | cons part parts => rw [List.getLastD_cons, List.getLastD_cons]
  · rw [ofEdits, edits_foldl {} cleared, List.splitOn_eq_singleton cleared]
    rfl
termination_by edits.length

end Sketch

/-- Two runs of edits clear as often, and between two clears they have the same edits. -/
def Reordered (first second : List Edit) : Prop :=
  List.Forall₂ List.Perm (first.splitOn .clear) (second.splitOn .clear)

theorem getLastD_perm {firsts seconds : List (List Edit)} {first second : List Edit}
    (same : List.Forall₂ List.Perm firsts seconds) (default : first.Perm second) :
    (firsts.getLastD first).Perm (seconds.getLastD second) := by
  induction same generalizing first second with
  | nil => exact default
  | cons head _ inductionHypothesis =>
      rw [List.getLastD_cons, List.getLastD_cons]
      exact inductionHypothesis head

namespace Sketch

theorem targets_eq_filterMap (sketch : Sketch) :
    sketch.targets = (sketch.edits.map Prod.fst).filterMap Edit.target? := by
  rw [targets, List.filterMap_map]
  rfl

/-- The order of the toggles between two clears is not seen. -/
theorem display_ofEdits_of_reordered {edits others : List Edit}
    (reordered : Reordered edits others) :
    (ofEdits edits).display = (ofEdits others).display := by
  have same : (ofEdits edits).targets.Perm (ofEdits others).targets := by
    rw [targets_eq_filterMap, targets_eq_filterMap, edits_ofEdits, edits_ofEdits]
    exact (getLastD_perm reordered .rfl).filterMap Edit.target?
  apply eq_of_get
  intro cell
  rw [(counted_ofEdits edits).picture, (counted_ofEdits others).picture, get_flip_blank,
    get_flip_blank, same.count_eq cell]

end Sketch

/-- Every cell shows the parity of its hits since the last clear. A hit erases its cell when it is an
even one, and a toggle that hits nothing changes nothing. The number of lit cells is the number of
hits that lit a cell less those that erased one. The toggles between two clears come in any order. -/
theorem pixels_are_hit_parity (edits : List Edit) :
    let sketch := Sketch.ofEdits edits
    sketch.edits.map Prod.fst = (edits.splitOn .clear).getLastD [] ∧
    (∀ column < 64, ∀ row < 32,
      sketch.display.pixel column row = if sketch.hits column row % 2 = 1 then 1 else 0) ∧
    (∀ x y column row, (Edit.toggle x y).Hits column row →
      ((sketch.display.toggle x y).2 = true ↔ (sketch.hits column row + 1) % 2 = 0)) ∧
    (∀ x y, ¬ (Edit.toggle x y).OnScreen → sketch.display.toggle x y = (sketch.display, false)) ∧
    (sketch.display.litCount : Int) = sketch.answers false - sketch.answers true ∧
    ∀ others, Reordered edits others → (Sketch.ofEdits others).display = sketch.display := by
  intro sketch
  have counted : sketch.Counted := Sketch.counted_ofEdits edits
  refine ⟨Sketch.edits_ofEdits edits, ?pixels, ?answers, ?missed, ?light, ?order⟩
  case pixels =>
    intro column columnInside row rowInside
    rw [pixel_eq_get sketch.display columnInside rowInside, counted.get columnInside rowInside]
  case answers =>
    intro x y column row hits
    exact counted.erased_iff hits
  case missed =>
    intro x y missed
    rw [Edit.OnScreen, Edit.exists_hits_iff, Option.not_isSome_iff_eq_none] at missed
    have missed : cell? x y = none := missed
    rw [toggle, missed]
  case light =>
    have light := counted.light
    omega
  case order =>
    intro others reordered
    exact (Sketch.display_ofEdits_of_reordered reordered).symm

theorem pixels_are_hit_parity_past_edge :
    let sketch := Sketch.ofEdits [.toggle 3 3, .clear, .toggle 64 10, .toggle 200 3]
    sketch.display.pixel 0 10 = 1 ∧ (sketch.display.toggle 0 10).2 = true ∧
      sketch.display.toggle 200 3 = (sketch.display, false) ∧ sketch.display.litCount = 1 ∧
      (Sketch.ofEdits [.toggle 3 3, .clear, .toggle 200 3, .toggle 64 10]).display =
        sketch.display := by
  intro sketch
  obtain ⟨-, pixels, answers, missed, light, order⟩ :=
    pixels_are_hit_parity [.toggle 3 3, .clear, .toggle 64 10, .toggle 200 3]
  have oneHit : sketch.hits 0 10 = 1 := by decide +kernel
  refine ⟨?pixel, ?answer, ?missed, ?light, ?order⟩
  case pixel => exact (pixels 0 (by decide) 10 (by decide)).trans (by rw [oneHit]; rfl)
  case answer => exact (answers 0 10 0 10 (by decide)).mpr (by rw [oneHit])
  case missed => exact missed 200 3 (by decide)
  case light =>
    have erasing : sketch.answers true = 0 := by decide +kernel
    have lighting : sketch.answers false = 1 := by decide +kernel
    have light : (sketch.display.litCount : Int) =
      sketch.answers false - sketch.answers true := light
    omega
  case order =>
    refine order _ ?_
    rw [Reordered]
    exact .cons .rfl (.cons (.swap _ _ []) .nil)

end Display

end Chip8
