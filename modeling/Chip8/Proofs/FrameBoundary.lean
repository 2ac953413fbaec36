import Chip8.Proofs.Ambient

/-!
This file compares frames of different lengths. The timers are the only places that a frame boundary
touches, and one instruction alone reads them back. Machines that agree outside the timers go on
agreeing until that instruction is executed, wherever the boundaries fall.
-/

namespace Chip8

namespace Machine

/-- Machines that agree outside some places differ at most there. -/
def AgreeOutside (places : List Place) (first second : Machine) : Prop :=
  ∀ place, place ∉ places → first.content place = second.content place

namespace AgreeOutside

variable {places : List Place} {first second third : Machine}

theorem refl (places : List Place) (machine : Machine) : AgreeOutside places machine machine :=
  fun _ _ => rfl

theorem symm (agree : AgreeOutside places first second) : AgreeOutside places second first :=
  fun place outside => (agree place outside).symm

theorem trans (agree : AgreeOutside places first second)
    (others : AgreeOutside places second third) : AgreeOutside places first third :=
  fun place outside => (agree place outside).trans (others place outside)

end AgreeOutside

/-- The timers are counted down at the end of a frame. -/
def timers : List Place :=
  [.delay, .sound]

/-- The timers are exchanged and everything else is kept. -/
def timed (machine : Machine) (delay sound : UInt8) : Machine :=
  { machine with delay := delay, sound := sound }

theorem agree_timed (machine : Machine) (delay sound : UInt8) :
    AgreeOutside timers machine (machine.timed delay sound) := by
  intro place outside
  cases place with
  | delay => exact absurd List.mem_cons_self outside
  | sound => exact absurd (List.mem_cons_of_mem _ List.mem_cons_self) outside
  | _ => rfl

/-- Machines that agree outside the timers are one machine with two settings of the timers. -/
theorem AgreeOutside.eq_timed {first second : Machine} (agree : AgreeOutside timers first second) :
    second = first.timed second.delay second.sound := by
  apply eq_of_content
  intro place
  cases place with
  | delay => rfl
  | sound => rfl
  | _ => exact (agree _ (by simp [timers])).symm

section Timed

variable (machine : Machine) (delay sound : UInt8)

/-- Two instructions set a timer, and one instruction reads a timer. -/
theorem perform_timed {instruction : Instruction} (unread : ∀ x, instruction ≠ .readDelay x) :
    AgreeOutside timers (machine.perform instruction)
      ((machine.timed delay sound).perform instruction) := by
  have kept {result : Machine} (same : result = (machine.perform instruction).timed delay sound) :
      AgreeOutside timers (machine.perform instruction) result :=
    same ▸ agree_timed _ delay sound
  have keptDetached (detached : instruction.Detached) :=
    kept (machine.perform_ambient (fun _ => delay) (fun _ => sound) id detached)
  cases instruction with
  | readDelay x => exact absurd rfl (unread x)
  | setDelay x => exact agree_timed _ (machine.register x) sound
  | setSound x => exact agree_timed _ delay (machine.register x)
  | random x mask => exact kept rfl
  | _ => exact keptDetached trivial

theorem verdict_timed (opcode : Opcode) :
    (machine.timed delay sound).verdict opcode = machine.verdict opcode :=
  verdict_congr rfl rfl opcode

theorem executing?_timed : (machine.timed delay sound).executing? = machine.executing? :=
  congrArg (fun judged => if machine.running ∧ machine.pc.toNat + 2 ≤ Memory.size then
    Except.toOption judged else none) (machine.verdict_timed delay sound machine.fetched)

/-- Faults and failed fetches do not depend on the timers either. -/
theorem step_timed (unread : ∀ x, machine.executing? ≠ some (.readDelay x)) :
    AgreeOutside timers machine.step (machine.timed delay sound).step := by
  refine @step_cases (fun next => AgreeOutside timers next (machine.timed delay sound).step) machine
    ?idle ?unfetched ?refused ?performed
  case idle =>
    intro idle
    have stays : (machine.timed delay sound).step = machine.timed delay sound :=
      step_of_not_running idle
    rw [stays]
    exact machine.agree_timed delay sound
  case unfetched =>
    intro running above
    have failed : (machine.timed delay sound).step = machine.failFetch.timed delay sound :=
      step_of_above running above
    rw [failed]
    exact machine.failFetch.agree_timed delay sound
  case refused =>
    intro fault running inside refused
    have again : (machine.timed delay sound).verdict machine.fetched = .error fault :=
      (machine.verdict_timed delay sound machine.fetched).trans refused
    have halted : (machine.timed delay sound).step =
        (machine.advance.halt fault machine.fetched).timed delay sound :=
      @step_of_error (machine.timed delay sound) running inside fault again
    rw [halted]
    exact (machine.advance.halt fault machine.fetched).agree_timed delay sound
  case performed =>
    intro instruction running inside accepted
    have again : (machine.timed delay sound).verdict machine.fetched = .ok instruction :=
      (machine.verdict_timed delay sound machine.fetched).trans accepted
    have performed : (machine.timed delay sound).step =
        (machine.advance.timed delay sound).perform instruction :=
      @step_of_ok (machine.timed delay sound) running inside instruction again
    rw [performed]
    apply machine.advance.perform_timed delay sound
    rintro x rfl
    exact unread x (executing?_eq_some.mpr ⟨running, inside, accepted⟩)

end Timed

/-- A trail is unread when none of its machines executes the instruction that reads a timer. -/
def Unread (visited : List Machine) : Prop :=
  ∀ machine ∈ visited, ∀ x, machine.executing? ≠ some (.readDelay x)

theorem unread_append {first second : List Machine} :
    Unread (first ++ second) ↔ Unread first ∧ Unread second :=
  List.forall_mem_append

namespace AgreeOutside

variable {first second : Machine}

theorem running (agree : AgreeOutside timers first second) : second.running = first.running := by
  rw [agree.eq_timed]
  rfl

theorem executing? (agree : AgreeOutside timers first second) :
    second.executing? = first.executing? := by
  rw [agree.eq_timed]
  exact first.executing?_timed second.delay second.sound

theorem step (agree : AgreeOutside timers first second)
    (unread : ∀ x, first.executing? ≠ some (.readDelay x)) :
    AgreeOutside timers first.step second.step := by
  rw [agree.eq_timed]
  exact first.step_timed second.delay second.sound unread

/-- Two runs stop after the same number of steps, because neither reads a timer before the other. -/
theorem runSteps (agree : AgreeOutside timers first second) {count : Nat}
    (unread : Unread (first.trail count)) :
    AgreeOutside timers (first.runSteps count) (second.runSteps count) ∧
      Unread (second.trail count) := by
  induction count generalizing first second with
  | zero => exact ⟨agree, unread⟩
  | succ count inductionHypothesis =>
      rw [trail] at unread ⊢
      rw [Machine.runSteps, Machine.runSteps, agree.running]
      split
      · rename_i running
        rw [if_pos running] at unread
        obtain ⟨here, behind⟩ := List.forall_mem_cons.mp unread
        obtain ⟨stepped, unreadBehind⟩ := inductionHypothesis (agree.step here) behind
        refine ⟨stepped, List.forall_mem_cons.mpr ⟨?_, unreadBehind⟩⟩
        rw [agree.executing?]
        exact here
      · exact ⟨agree, by simp [Unread]⟩

end AgreeOutside

/-- A frame differs from its steps in its timers only. -/
theorem agree_runFrame (machine : Machine) (speed : Int) :
    AgreeOutside timers (machine.runFrame speed) (machine.runSteps speed.toNat) := by
  simp only [runFrame]
  split
  · exact ((machine.runSteps speed.toNat).agree_timed _ _).symm
  · exact .refl timers _

end Machine

namespace System

open Machine

variable {first second : Machine}

theorem steps_of_frames (scheduler : Scheduler) (count : Nat) :
    scheduler.speed.toNat * (count + 1) =
      scheduler.speed.toNat + scheduler.speed.toNat * count := by
  rw [Nat.mul_succ, Nat.add_comm]

/-- Frames come down to their steps. -/
theorem agree_frames_steps (agree : AgreeOutside timers first second) (scheduler : Scheduler)
    (count : Nat) (unread : Unread (System.trail ⟨first, scheduler⟩ (.replicate count .frame))) :
    AgreeOutside timers (System.play ⟨first, scheduler⟩ (.replicate count .frame)).1.machine
        (second.runSteps (scheduler.speed.toNat * count)) ∧
      Unread (second.trail (scheduler.speed.toNat * count)) := by
  induction count generalizing first second scheduler with
  | zero => exact ⟨agree, by simp [Unread, Machine.trail]⟩
  | succ count inductionHypothesis =>
      obtain ⟨here, behind⟩ := unread_append.mp unread
      obtain ⟨stepped, unreadHere⟩ := agree.runSteps here
      have framed := (first.agree_runFrame scheduler.speed).trans stepped
      obtain ⟨played, unreadBehind⟩ :=
        inductionHypothesis framed { scheduler with frames := scheduler.frames + 1 } behind
      rw [steps_of_frames, runSteps_add, trail_add]
      exact ⟨played, unread_append.mpr ⟨unreadHere, unreadBehind⟩⟩

/-- Steps are put together to frames. -/
theorem agree_steps_frames (agree : AgreeOutside timers first second) (scheduler : Scheduler)
    (count : Nat) (unread : Unread (first.trail (scheduler.speed.toNat * count))) :
    AgreeOutside timers (first.runSteps (scheduler.speed.toNat * count))
      (System.play ⟨second, scheduler⟩ (.replicate count .frame)).1.machine := by
  induction count generalizing first second scheduler with
  | zero => exact agree
  | succ count inductionHypothesis =>
      rw [steps_of_frames, trail_add] at unread
      obtain ⟨here, behind⟩ := unread_append.mp unread
      have framed := (agree.runSteps here).1.trans (second.agree_runFrame scheduler.speed).symm
      rw [steps_of_frames, runSteps_add]
      exact inductionHypothesis framed { scheduler with frames := scheduler.frames + 1 } behind

end System

/-- A speed below zero lets a frame run no step at all. -/
theorem toNat_speed_mul (speed : Int) (count : Nat) :
    speed.toNat * count = (speed * count).toNat := by
  rcases Int.le_total 0 speed with upward | downward
  · obtain ⟨steps, rfl⟩ := Int.eq_ofNat_of_zero_le upward
    exact (Int.toNat_natCast (steps * count)).symm
  · have none : speed * count ≤ 0 := Int.mul_nonpos_of_nonpos_of_nonneg downward (by omega)
    rw [Int.toNat_of_nonpos downward, Int.toNat_of_nonpos none, Nat.zero_mul]

/-- The same number of steps leads to the same machine outside the timers, however the steps are
divided into frames, unless a timer is read. -/
theorem frames_show_in_timers_only (machine : Machine) (first second : Scheduler)
    (firstCount secondCount : Nat)
    (same : first.speed * firstCount = second.speed * secondCount)
    (unread : Machine.Unread (System.trail ⟨machine, first⟩ (.replicate firstCount .frame))) :
    Machine.AgreeOutside Machine.timers
      (System.play ⟨machine, first⟩ (.replicate firstCount .frame)).1.machine
      (System.play ⟨machine, second⟩ (.replicate secondCount .frame)).1.machine := by
  have agree := Machine.AgreeOutside.refl Machine.timers machine
  obtain ⟨framed, unreadSteps⟩ := System.agree_frames_steps agree first firstCount unread
  have steps : first.speed.toNat * firstCount = second.speed.toNat * secondCount := by
    rw [toNat_speed_mul, toNat_speed_mul, same]
  rw [steps] at framed unreadSteps
  exact framed.trans (System.agree_steps_frames agree second secondCount unreadSteps)

/-- The program sets the delay timer and then counts in a loop. Three short frames and two long ones
count equally far, but the timer shows how many there were. -/
theorem frames_show_in_timers_of_counter :
    let machine := { Machine.fresh (MersenneTwister.seeded 0) with
      memory := Memory.zeroed.writeAll 0x200 [0x62, 0x05, 0xF2, 0x15, 0x73, 0x01, 0x12, 0x04] }
    let short := (System.play ⟨machine, { speed := 2 }⟩ (.replicate 3 .frame)).1.machine
    let long := (System.play ⟨machine, { speed := 3 }⟩ (.replicate 2 .frame)).1.machine
    short.pc = long.pc ∧ short.register 3 = long.register 3 ∧ short.delay ≠ long.delay := by
  intro machine short long
  have unread : ∀ visited ∈ System.trail ⟨machine, { speed := 2 }⟩ (.replicate 3 .frame),
      ∀ x, visited.executing? ≠ some (.readDelay x) := by decide +kernel
  have agree := frames_show_in_timers_only machine { speed := 2 } { speed := 3 } 3 2 rfl unread
  exact ⟨agree .pc (by decide), agree (.register 3) (by decide), by decide +kernel⟩

end Chip8
