import Chip8.Proofs.Recurrence
import Chip8.Proofs.Trail

/-!
This file holds the random stream of a history. One instruction draws from the generator, and every
other instruction and operation hands the generator on as it is. Only a seed begins the stream anew.
-/

namespace Chip8

/-- The operation gives the machine no new seed. -/
def Operation.Unseeded : Operation → Prop
  | .seed _ => False
  | .boot _ options => options.seed = none
  | _ => True

/-- A machine that draws has a register for its byte and a mask for it. -/
structure RandomDraw where
  machine : Machine
  target : Register
  mask : UInt8

namespace Machine

def randomDraw? (machine : Machine) : Option RandomDraw :=
  match machine.executing? with
  | some (.random x mask) => some ⟨machine, x, mask⟩
  | _ => none

/-- The draws are listed in the order of their execution. -/
def randomDraws (visited : List Machine) : List RandomDraw :=
  visited.filterMap randomDraw?

theorem randomDraw?_eq_some {machine : Machine} {draw : RandomDraw} :
    machine.randomDraw? = some draw ↔
      draw.machine = machine ∧ machine.executing? = some (.random draw.target draw.mask) := by
  unfold randomDraw?
  split
  · rename_i x mask executes
    rw [executes, Option.some.injEq]
    constructor
    · rintro rfl
      exact ⟨rfl, rfl⟩
    · rintro ⟨rfl, same⟩
      obtain ⟨rfl, rfl⟩ := Instruction.random.inj (Option.some.inj same)
      rfl
  · rename_i other
    simp only [reduceCtorEq, false_iff, not_and]
    exact fun _ executes => other _ _ executes

/-- A draw stores the masked byte and moves the generator on. -/
theorem step_of_randomDraw {machine : Machine} {draw : RandomDraw}
    (draws : machine.randomDraw? = some draw) :
    machine.step.generator = machine.generator.advance ∧
      machine.step.register draw.target = machine.generator.nextByte.1 &&& draw.mask := by
  rw [step_of_executing (randomDraw?_eq_some.mp draws).2]
  exact ⟨rfl, Vector.getElem_set_self _⟩

theorem generator_step_of_drawless {machine : Machine} (drawless : machine.randomDraw? = none) :
    machine.step.generator = machine.generator := by
  have kept : machine.step.content .generator = machine.content .generator := by
    apply content_step (by decide)
    intro instruction executes
    cases instruction with
    | random x mask => simp [randomDraw?, executes] at drawless
    | _ => simp [Instruction.writes, memoryBlock]
  exact kept

/-- The generator is handed on from machine to machine, and no step is left out. -/
def HandsOn (before : MersenneTwister) : List Machine → MersenneTwister → Prop
  | [], after => after = before
  | machine :: rest, after =>
      machine.generator = before ∧ HandsOn machine.step.generator rest after

namespace HandsOn

variable {before after : MersenneTwister}

theorem append {between : MersenneTwister} {first second : List Machine}
    (earlier : HandsOn before first between) (later : HandsOn between second after) :
    HandsOn before (first ++ second) after := by
  induction first generalizing before with
  | nil =>
      obtain rfl : between = before := earlier
      exact later
  | cons machine rest inductionHypothesis =>
      exact ⟨earlier.1, inductionHypothesis earlier.2⟩

/-- A generator that is handed on is advanced by the draws, and each of them finds it advanced by the
draws before. -/
theorem consumed {visited : List Machine} (handsOn : HandsOn before visited after) :
    after = before.skip (randomDraws visited).length ∧
      ∀ number draw, (randomDraws visited)[number]? = some draw →
        draw.machine.generator = before.skip number := by
  induction visited generalizing before with
  | nil => exact ⟨handsOn, by simp [randomDraws]⟩
  | cons machine rest inductionHypothesis =>
      obtain ⟨here, behind⟩ := handsOn
      obtain ⟨ends, finds⟩ := inductionHypothesis behind
      cases draws : machine.randomDraw? with
      | none =>
          have listed : randomDraws (machine :: rest) = randomDraws rest :=
            List.filterMap_cons_none draws
          have kept : machine.step.generator = before :=
            (generator_step_of_drawless draws).trans here
          rw [kept] at ends finds
          rw [listed]
          exact ⟨ends, finds⟩
      | some first =>
          have listed : randomDraws (machine :: rest) = first :: randomDraws rest :=
            List.filterMap_cons_some draws
          have advanced : machine.step.generator = before.advance :=
            (step_of_randomDraw draws).1.trans (congrArg MersenneTwister.advance here)
          rw [advanced] at ends finds
          rw [listed]
          refine ⟨ends, ?_⟩
          intro number draw found
          cases number with
          | zero =>
              obtain rfl := Option.some.inj found
              rw [(randomDraw?_eq_some.mp draws).1]
              exact here
          | succ number => exact finds number draw found

end HandsOn

theorem handsOn_trail (machine : Machine) (count : Nat) :
    HandsOn machine.generator (machine.trail count) (machine.runSteps count).generator := by
  induction count generalizing machine with
  | zero => rfl
  | succ count inductionHypothesis =>
      rw [trail, runSteps]
      split
      · exact ⟨rfl, inductionHypothesis machine.step⟩
      · rfl

theorem handsOn_frame (machine : Machine) (speed : Int) :
    HandsOn machine.generator (machine.trail speed.toNat) (machine.runFrame speed).generator := by
  have stepped := machine.handsOn_trail speed.toNat
  rw [runFrame]
  split
  · exact stepped
  · exact stepped

theorem generator_load? {machine loaded : Machine} {program : List UInt8} {origin : UInt16}
    (accepted : machine.load? program origin = some loaded) :
    loaded.generator = machine.generator := by
  obtain ⟨memory, rfl⟩ := load?_eq accepted
  rfl

/-- A restart without a seed keeps the generator, whether or not a program follows. -/
theorem generator_boot (machine : Machine) (files : Rom.Files) {options : Options}
    (unseeded : options.seed = none) :
    (machine.boot files options).1.generator = machine.generator := by
  have restarted : (machine.restart options.seed).generator = machine.generator := by
    rw [unseeded]
    rfl
  simp only [boot]
  split
  · rfl
  · split
    · exact restarted
    · rename_i accepted
      exact (generator_load? accepted).trans restarted

end Machine

namespace System

open Machine

variable (system : System)

/-- The operations between the plays step no machine. -/
def operationTrail : Operation → List Machine
  | .move move => system.moveTrail move
  | _ => []

/-- The trail of a history passes through its operations. -/
def historyTrail (system : System) : List Operation → List Machine
  | [] => []
  | operation :: rest =>
      system.operationTrail operation ++ (system.operate operation).historyTrail rest

theorem handsOn_move (move : Move) :
    HandsOn system.machine.generator (system.moveTrail move)
      (system.move move).1.machine.generator := by
  cases move with
  | step => exact ⟨rfl, rfl⟩
  | keyDown key =>
      change (system.machine.keyDown key).generator = system.machine.generator
      rw [system.machine.keyDown_eq key]
  | frame => exact system.machine.handsOn_frame system.scheduler.speed
  | tick now =>
      rw [moveTrail, move_tick]
      split
      · rfl
      · exact system.machine.handsOn_frame system.scheduler.speed
  | _ => rfl

theorem handsOn_operation {operation : Operation} (unseeded : operation.Unseeded) :
    HandsOn system.machine.generator (system.operationTrail operation)
      (system.operate operation).machine.generator := by
  cases operation with
  | seed value => exact unseeded.elim
  | load program origin =>
      change ((system.machine.load? program origin).getD system.machine).generator = _
      cases accepted : system.machine.load? program origin with
      | none => rfl
      | some loaded => exact generator_load? accepted
  | boot files options => exact system.machine.generator_boot files unseeded
  | move move => exact system.handsOn_move move
  | reset =>
      change system.machine.reset.generator = system.machine.generator
      rw [Machine.reset, loadFont, fresh]
  | loadFont =>
      change system.machine.loadFont.generator = system.machine.generator
      rw [loadFont]

theorem handsOn_history {operations : List Operation}
    (unseeded : ∀ operation ∈ operations, operation.Unseeded) :
    HandsOn system.machine.generator (system.historyTrail operations)
      (system.history operations).machine.generator := by
  induction operations generalizing system with
  | nil => rfl
  | cons operation rest inductionHypothesis =>
      obtain ⟨first, others⟩ := List.forall_mem_cons.mp unseeded
      exact (system.handsOn_operation first).append
        (inductionHypothesis (system.operate operation) others)

end System

/-- Behind a seed, the draws of a history get the outputs of the seed one after the other, also where
the mask keeps nothing of them. In the end the generator has been advanced by the draws alone. -/
theorem random_stream_consumed_by_draws (machine : Machine) (scheduler : Scheduler) (seed : UInt32)
    (operations : List Operation) (unseeded : ∀ operation ∈ operations, operation.Unseeded) :
    let started : System := ⟨machine.seed seed, scheduler⟩
    let draws := Machine.randomDraws (started.historyTrail operations)
    (started.history operations).machine.generator =
        (MersenneTwister.seeded seed).skip draws.length ∧
      ∀ number draw, draws[number]? = some draw →
        draw.machine.executing? = some (.random draw.target draw.mask) ∧
          draw.machine.step.register draw.target =
            (MersenneTwister.output seed number >>> 24).toUInt8 &&& draw.mask := by
  intro started draws
  obtain ⟨ends, finds⟩ := (started.handsOn_history unseeded).consumed
  refine ⟨ends, ?_⟩
  intro number draw found
  obtain ⟨visited, _, drawn⟩ := List.mem_filterMap.mp (List.mem_of_getElem? found)
  obtain ⟨rfl, executes⟩ := Machine.randomDraw?_eq_some.mp drawn
  refine ⟨executes, ?_⟩
  rw [(Machine.step_of_randomDraw drawn).2, finds number draw found]
  exact congrArg (fun drawn => drawn.1 &&& draw.mask) (MersenneTwister.nextByte_skip seed number)

/-- The program draws twice and then awaits a key, and the first mask keeps nothing. It is loaded
again behind a reset, and the stream goes on with its third output. -/
theorem random_stream_goes_on_behind_reset :
    let program : List UInt8 := [0xC0, 0x00, 0xC1, 0xFF, 0xF2, 0x0A]
    let operations : List Operation :=
      [.load program 0x200, .move .frame, .move (.keyDown 3), .reset, .load program 0x200,
        .move .step, .move .step]
    let started : System := ⟨(Machine.fresh (MersenneTwister.seeded 0)).seed 9, {}⟩
    let draws := Machine.randomDraws (started.historyTrail operations)
    draws.length = 4 ∧
      (started.history operations).machine.generator = (MersenneTwister.seeded 9).skip 4 ∧
      ∀ draw, draws[3]? = some draw →
        draw.machine.step.register draw.target =
          (MersenneTwister.output 9 3 >>> 24).toUInt8 &&& draw.mask := by
  intro program operations started draws
  have counted : draws.length = 4 := by decide +kernel
  have unseeded : ∀ operation ∈ operations, operation.Unseeded := by
    simp [operations, Operation.Unseeded]
  obtain ⟨ends, finds⟩ := random_stream_consumed_by_draws (Machine.fresh (MersenneTwister.seeded 0))
    {} 9 operations unseeded
  refine ⟨counted, ?_, fun draw found => (finds 3 draw found).2⟩
  exact counted ▸ ends

end Chip8
