import Chip8.Proofs.Trail

/-!
This file holds the discipline of calls and returns. A call leaves a frame on the stack, and every
machine that keeps the depth of this frame keeps the frame, so that the return that gives it up
leads back behind the call.
-/

namespace Chip8

namespace Machine

/-- A frame is pending while the stack is deep enough to hold it. -/
def Pending (frame : List UInt16) (machine : Machine) : Prop :=
  frame.length ≤ machine.stack.length → frame <:+ machine.stack

namespace Pending

variable {frame : List UInt16}

/-- A return from a deeper stack gives up an address that lies above the frame. -/
theorem step (machine : Machine) (deep : frame.length ≤ machine.stack.length)
    (pending : machine.Pending frame) : machine.step.Pending frame := by
  have held : frame <:+ machine.stack := pending deep
  refine machine.step_cases ?idle ?unfetched ?refused ?performed
  case idle => exact fun _ => pending
  case unfetched => exact fun _ _ _ => held
  case refused => exact fun _ _ _ _ _ => held
  case performed =>
    intro instruction _ _ _ stillDeep
    rw [stack_perform] at stillDeep ⊢
    split at stillDeep
    · exact List.suffix_of_suffix_length_le held (List.tail_suffix machine.stack) stillDeep
    · exact held.trans (List.suffix_cons _ machine.stack)
    · exact held

theorem keyDown (machine : Machine) (key : UInt8) (pending : machine.Pending frame) :
    (machine.keyDown key).Pending frame := by
  rw [machine.keyDown_eq key]
  exact pending

/-- The frame reaches every machine of a trail behind which the stack has not become shallow. -/
theorem of_trail {system : System} {moves : List Move} (pending : system.machine.Pending frame)
    {earlier later : List Machine} {machine : Machine}
    (visited : system.trail moves = earlier ++ machine :: later)
    (deep : ∀ between ∈ earlier, frame.length ≤ between.stack.length) :
    machine.Pending frame := by
  have kept := System.keptAlong_play step (fun _ pending => pending) keyDown
    (fun _ _ pending => pending) system moves pending
  rw [visited, List.append_assoc, List.cons_append] at kept
  exact kept.holds deep

end Pending

variable {machine : Machine}

theorem step_of_call {target : UInt16} (executes : machine.executing? = some (.call target)) :
    machine.step.stack = (machine.pc + 2) :: machine.stack := by
  rw [step_of_executing executes]
  rfl

/-- A return takes one address from the stack. -/
theorem step_of_return (returns : machine.executing? = some .leaveRoutine) :
    machine.stack = machine.step.pc :: machine.step.stack := by
  have filled := stack_filled_of_return (executing?_eq_some.mp returns).2.2
  obtain ⟨address, rest, stacked⟩ := List.exists_cons_of_ne_nil filled
  have entries : machine.advance.stack = address :: rest := stacked
  simp only [step_of_executing returns, perform, leaveRoutine, entries]
  exact stacked

end Machine

/-- However deep the calls and returns in between are nested, the return that brings the stack back
to its depth before a call leaves the stack of the call and leads to the next instruction. -/
theorem return_leads_behind_call (machine : Machine) (target : UInt16)
    (executes : machine.executing? = some (.call target)) (scheduler : Scheduler)
    (moves : List Move) (earlier later : List Machine) (last : Machine)
    (visited : System.trail ⟨machine.step, scheduler⟩ moves = earlier ++ last :: later)
    (deep : ∀ between ∈ earlier, machine.stack.length + 1 ≤ between.stack.length)
    (returns : last.executing? = some .leaveRoutine)
    (shallow : last.step.stack.length = machine.stack.length) :
    last.step.stack = machine.stack ∧ last.step.pc = machine.pc + 2 := by
  have called := Machine.step_of_call executes
  have returned := Machine.step_of_return returns
  have begun : machine.step.Pending ((machine.pc + 2) :: machine.stack) :=
    fun _ => called ▸ List.suffix_refl _
  have pending : last.Pending ((machine.pc + 2) :: machine.stack) := begun.of_trail visited deep
  have depth : last.stack.length = machine.stack.length + 1 := by
    rw [returned, List.length_cons, shallow]
  have held : (machine.pc + 2) :: machine.stack <:+ last.stack := pending (Nat.le_of_eq depth.symm)
  have same : (machine.pc + 2) :: machine.stack = last.step.pc :: last.step.stack :=
    (held.eq_of_length depth.symm).trans returned
  obtain ⟨address, rest⟩ := List.cons.inj same
  exact ⟨rest.symm, address.symm⟩

/-- The routine at `204` calls the routine at `208` before it returns. -/
theorem return_leads_behind_nested_call :
    let machine := { Machine.fresh (MersenneTwister.seeded 0) with
      memory := Memory.zeroed.writeAll 0x200
        [0x22, 0x04, 0x00, 0x00, 0x22, 0x08, 0x00, 0xEE, 0x00, 0xEE] }
    let last := (machine.step.runFrame 2).keyDown 1
    last.step.stack = [] ∧ last.step.pc = 0x202 := by
  intro machine last
  exact return_leads_behind_call machine 0x204 (by decide +kernel) { speed := 2 }
    [.frame, .keyDown 1, .step] (machine.step.trail 2) [] last rfl (by decide +kernel)
    (by decide +kernel) (by decide +kernel)

end Chip8
