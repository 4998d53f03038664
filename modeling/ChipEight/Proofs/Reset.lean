import ChipEight.Proofs.Ranges

/-!
# A reset is switching on

After a reset a machine is in the state of a new one that was switched on at the same moment and
given the same program. `Machine.State` is what that is said of: all that a program or a player can
find out from the machine itself. What a reset leaves alone is not in it: the listeners and the
tones asked for, the rate, and the place in the source of random numbers.

Two things about the past of a machine are needed. The program that a reset places is the last one
that was not too large, which `lastLoaded` reads off the operations and never off the machine. And
no operation changes the period of a timer or the number of rows of the screen in use, which a reset
keeps as they are.

From there on the two machines are twins: they differ in what surrounds them at most, and their
sources of random numbers have the same members to come. Twins fault alike and stay twins, so they
show the same states for good. What surrounds them has no way back into the state, except for a
member of the source, and a step takes at most one.
-/

namespace ChipEight

open Number

/-! ## Programs and periods over the past of a machine -/

/-- The program to reload after an operation: a load that is turned down does not change it. -/
def Operation.placed (program : List UInt8) : Operation → List UInt8
  | .load bytes => if bytes.length ≤ programLimit then bytes else program
  | _ => program

/-- The last program that was not too large among operations, or none. -/
def lastLoaded (operations : List Operation) : List UInt8 :=
  operations.foldl Operation.placed []

theorem Operation.placed_length {program : List UInt8} (h : program.length ≤ programLimit)
    (operation : Operation) : (operation.placed program).length ≤ programLimit := by
  cases operation with
  | load bytes =>
      change (if bytes.length ≤ programLimit then bytes else program).length ≤ programLimit
      split
      · assumption
      · exact h
  | _ => exact h

/-- What was loaded last fits. -/
theorem lastLoaded_length (operations : List Operation) :
    (lastLoaded operations).length ≤ programLimit := by
  suffices h : ∀ program : List UInt8, program.length ≤ programLimit →
      (operations.foldl Operation.placed program).length ≤ programLimit from h [] (Nat.zero_le _)
  induction operations with
  | nil => exact fun _ h => h
  | cons operation rest ih =>
      intro program h
      exact ih _ (operation.placed_length h)

/-- Both timers count sixtieths of a second. -/
def Board.Sixtieths (b : Board) : Prop :=
  b.delay.period = timerPeriod ∧ b.sound.period = timerPeriod

namespace Timer

theorem tick_period {τ : Type} [Add τ] [Sub τ] [LT τ] [LE τ] [DecidableLT τ] [DecidableLE τ]
    (t : Timer τ) (now : τ) : (t.tick now).2.period = t.period := by
  unfold tick
  split
  · rfl
  · split
    · rfl
    · rfl

theorem handle_period (t : Timer Seconds) (now : Seconds) (event : TimerEvent) :
    (t.handle now event).period = t.period := by
  cases event with
  | set value => rfl
  | tick => exact t.tick_period now
  | reset => rfl

end Timer

namespace Board

theorem Sixtieths.outcome {b : Board} (h : b.Sixtieths) (now : Seconds) (i : Instruction) :
    (b.outcome now i).Sixtieths := by
  cases i <;> exact h

theorem Sixtieths.tickTimers {b : Board} (h : b.Sixtieths) (now : Seconds) :
    (b.tickTimers now).Sixtieths :=
  ⟨(b.delay.tick_period now).trans h.1, (b.sound.tick_period now).trans h.2⟩

theorem Sixtieths.step {b : Board} (h : b.Sixtieths) (now : Seconds) :
    (b.step now).board.Sixtieths := by
  rcases b.step_cases now with ⟨_, hs⟩ | ⟨_, _, _, hs⟩ | ⟨_, word, _, hs⟩
  · rw [hs]; exact h
  · rw [hs]; exact h
  · rw [hs]; exact Sixtieths.outcome (b := b.advanced) h now _

end Board

namespace Machine

theorem step_sixtieths {m : Machine} (h : m.board.Sixtieths) (now : Seconds) :
    (m.step now).machine.board.Sixtieths := by
  have hstep := h.step now
  rcases m.step_cases now with ⟨_, hs⟩ | ⟨_, _, _, _, hs⟩ | ⟨_, _, _, hs⟩
  · rw [hs]; exact h
  · rw [hs]; exact hstep
  · rw [hs, publish_eq]; exact hstep.tickTimers now

/-- **Every operation keeps the periods, and only a load changes the program.** -/
theorem perform_kept {m : Machine} (h : m.board.Sixtieths) (operation : Operation) :
    (m.perform operation).board.Sixtieths ∧
      (m.perform operation).program = operation.placed m.program := by
  cases operation with
  | step now => exact ⟨step_sixtieths h now, (m.step_untouched now).2.2.1⟩
  | stepProcessor now => exact ⟨h.step now, rfl⟩
  | run options readings schedule turns =>
      refine Bench.run_keeps (P := fun m' => m'.board.Sixtieths ∧ m'.program = m.program)
        ?_ (fun _ _ h => h) _ _ _ ⟨h, rfl⟩
      intro m' now h'
      exact ⟨step_sixtieths h'.1 now, (m'.step_untouched now).2.2.1.trans h'.2⟩
  | key event => exact ⟨h, rfl⟩
  | clearKeypad => exact ⟨h, rfl⟩
  | delay now event => exact ⟨⟨(m.board.delay.handle_period now event).trans h.1, h.2⟩, rfl⟩
  | sound now event => exact ⟨⟨h.1, (m.board.sound.handle_period now event).trans h.2⟩, rfl⟩
  | tickTimers now => exact ⟨h.tickTimers now, rfl⟩
  | load program =>
      rcases m.perform_load_cases program with ⟨hfits, memory, _, hm⟩ | ⟨hlarge, _, hm⟩
      · rw [hm]
        exact ⟨h, (if_pos hfits).symm⟩
      · rw [hm]
        exact ⟨h, (if_neg hlarge).symm⟩
  | resetProcessor => exact ⟨h, rfl⟩
  | reset now => exact ⟨h, rfl⟩
  | listen listener => exact ⟨h, rfl⟩
  | unlisten listener =>
      obtain ⟨listeners, hm⟩ := m.perform_unlisten listener
      rw [hm]
      exact ⟨h, rfl⟩

/-- The same over a whole past. -/
theorem performAll_kept (operations : List Operation) {m : Machine} (h : m.board.Sixtieths) :
    (m.performAll operations).board.Sixtieths ∧
      (m.performAll operations).program = operations.foldl Operation.placed m.program := by
  induction operations generalizing m with
  | nil => exact ⟨h, rfl⟩
  | cons operation rest ih =>
      obtain ⟨hperiods, hprogram⟩ := perform_kept h operation
      have hrest := ih hperiods
      rw [hprogram] at hrest
      exact hrest

end Machine

/-! ## Sources with the same members to come -/

namespace RandomSource

/-- The k-th number that will be taken from now on. -/
def coming (s : RandomSource) : Nat → Int
  | 0 => s.next.1
  | k + 1 => s.next.2.coming k

/-- The sources have the same numbers to come. -/
def Agrees (s s' : RandomSource) : Prop := ∀ k, s.coming k = s'.coming k

theorem Agrees.first {s s' : RandomSource} (h : s.Agrees s') : s.next.1 = s'.next.1 := h 0

theorem Agrees.rest {s s' : RandomSource} (h : s.Agrees s') : s.next.2.Agrees s'.next.2 :=
  fun k => h (k + 1)

end RandomSource

/-! ## Twins -/

namespace Board

/-- The board after a reset that places a program. -/
def renewed (b : Board) (program : List UInt8) (now : Seconds) : Board :=
  { b with
    processor := {}
    memory := Machine.freshMemory program
    screen := b.screen.clear
    keypad := b.keypad.clear
    delay := b.delay.reset now
    sound := b.sound.reset now }

/-- The board with another source of random numbers. -/
def withRandom (b : Board) (random : RandomSource) : Board := { b with random }

/-- The other board differs in the source of random numbers at most, and the sources agree. -/
def Twins (b b' : Board) : Prop :=
  ∃ random, b' = b.withRandom random ∧ random.Agrees b.random

/-- What an instruction needs is not random. -/
theorem refusal_withRandom (b : Board) (random : RandomSource) (pc : Int) (i : Instruction) :
    (b.withRandom random).refusal pc i = b.refusal pc i := by
  cases i <;> rfl

/-- **An instruction has the same outcome by another source** with the same number to come. -/
theorem outcome_withRandom {b : Board} {random : RandomSource}
    (h : random.next.1 = b.random.next.1) (now : Seconds) (i : Instruction) :
    (b.withRandom random).outcome now i =
      (b.outcome now i).withRandom ((b.withRandom random).randomAfter i) := by
  cases i with
  | random x mask =>
      have hregisters : (b.withRandom random).registersAfter (.random x mask) =
          b.registersAfter (.random x mask) := by
        change (b.processor.setRegister x (byteOf random.next.1 &&& mask)).registers = _
        rw [h]
        rfl
      simp only [outcome, hregisters]
      rfl
  | _ => rfl

/-- An instruction takes one number at most, so the sources still agree after it. -/
theorem randomAfter_agrees {b : Board} {random : RandomSource} (h : random.Agrees b.random)
    (i : Instruction) : ((b.withRandom random).randomAfter i).Agrees (b.randomAfter i) := by
  cases i with
  | random x mask => exact h.rest
  | _ => exact h

theorem Twins.outcome {b b' : Board} (h : b.Twins b') (now : Seconds) (i : Instruction) :
    (b.outcome now i).Twins (b'.outcome now i) := by
  obtain ⟨random, rfl, hagrees⟩ := h
  exact ⟨_, outcome_withRandom hagrees.first now i, randomAfter_agrees hagrees i⟩

/-- What does not look at the source of random numbers keeps twins. -/
theorem Twins.map {b b' : Board} (h : b.Twins b') (change : Board → Board)
    (hrandom : ∀ b random, change (b.withRandom random) = (change b).withRandom random)
    (hsource : ∀ b, (change b).random = b.random) : (change b).Twins (change b') := by
  obtain ⟨random, rfl, hagrees⟩ := h
  refine ⟨random, hrandom b random, ?_⟩
  rw [hsource]
  exact hagrees

/-- **Twins fault alike and are twins after a step.** -/
theorem Twins.step {b b' : Board} (h : b.Twins b') (now : Seconds) :
    (b'.step now).fault = (b.step now).fault ∧ (b.step now).board.Twins (b'.step now).board := by
  obtain ⟨random, rfl, hagrees⟩ := h
  have hprocessor : (b.withRandom random).processor = b.processor := rfl
  have hmemory : (b.withRandom random).memory = b.memory := rfl
  rw [step_eq, step_eq, hprocessor, hmemory]
  cases b.processor.halted with
  | true => exact ⟨rfl, random, rfl, hagrees⟩
  | false =>
      cases b.memory.fetch b.processor.pc with
      | error fault => exact ⟨rfl, random, rfl, hagrees⟩
      | ok word =>
          refine ⟨b.refusal_withRandom random _ _, ?_⟩
          have hadvanced : b.advanced.Twins (b.withRandom random).advanced :=
            ⟨random, rfl, hagrees⟩
          exact hadvanced.outcome now _

end Board

namespace Machine

/-- The other machine differs in its surroundings at most: the buzzer, the listeners, the rate, the
title and the source of random numbers. The sources agree. -/
structure Twins (m m' : Machine) : Prop where
  board : m.board.Twins m'.board
  program : m'.program = m.program
  steps : m'.steps = m.steps
  fault : m'.fault = m.fault
  halted : m'.halted = m.halted

theorem reset_board (m : Machine) (now : Seconds) :
    (m.reset now).board = m.board.renewed m.program now := rfl

/-- Only the board is changed, and twins by the same change. -/
theorem Twins.onBoard {m m' : Machine} (h : m.Twins m') {board board' : Board}
    (hboard : board.Twins board') :
    ({ m with board } : Machine).Twins { m' with board := board' } :=
  ⟨hboard, h.program, h.steps, h.fault, h.halted⟩

theorem Twins.haltWithProcessor {m m' : Machine} (h : m.Twins m') :
    m.haltWithProcessor.Twins m'.haltWithProcessor := by
  refine ⟨h.board, h.program, h.steps, h.fault, ?_⟩
  obtain ⟨random, hboard, _⟩ := h.board
  rw [Machine.haltWithProcessor, Machine.haltWithProcessor, hboard, h.halted]
  rfl

/-- Handing the screen out takes the news from both. -/
theorem Twins.publish {m m' : Machine} (h : m.Twins m') : m.publish.Twins m'.publish := by
  rw [publish_eq, publish_eq]
  have hboard := h.board.map (fun b => { b with screen := { b.screen with dirty := false } })
    (fun _ _ => rfl) (fun _ => rfl)
  exact ⟨hboard, h.program, h.steps, h.fault, h.halted⟩

/-- **Twins fault alike and are twins after a step of the machine.** -/
theorem Twins.step {m m' : Machine} (h : m.Twins m') (now : Seconds) :
    (m'.step now).fault = (m.step now).fault ∧
      (m.step now).machine.Twins (m'.step now).machine := by
  obtain ⟨hfault, hboard⟩ := h.board.step now
  obtain ⟨hmachine, hattempt⟩ := m.step_eq now
  obtain ⟨hmachine', hattempt'⟩ := m'.step_eq now
  cases hhalted : m.halted with
  | true =>
      rw [if_pos hhalted] at hmachine hattempt
      rw [if_pos (h.halted.trans hhalted)] at hmachine' hattempt'
      rw [hmachine, hattempt, hmachine', hattempt']
      exact ⟨rfl, h⟩
  | false =>
      have hrun : ¬ m.halted = true := by rw [hhalted]; simp
      have hrun' : ¬ m'.halted = true := by rw [h.halted]; exact hrun
      rw [if_neg hrun] at hmachine hattempt
      rw [if_neg hrun'] at hmachine' hattempt'
      rw [hfault] at hmachine' hattempt'
      refine ⟨hattempt'.trans hattempt.symm, ?_⟩
      rw [hmachine, hmachine']
      cases (m.board.step now).fault with
      | some fault => exact ⟨hboard, h.program, h.steps, h.fault, h.halted⟩
      | none =>
          have hticked := hboard.map (·.tickTimers now) (fun _ _ => rfl) (fun _ => rfl)
          have hcounted : ({ m with
                buzzer := m.toned
                board := (m.board.step now).board.tickTimers now
                steps := m.steps + 1 } : Machine).Twins
              { m' with
                buzzer := m'.toned
                board := (m'.board.step now).board.tickTimers now
                steps := m'.steps + 1 } :=
            ⟨hticked, h.program, congrArg (· + 1) h.steps, h.fault, h.halted⟩
          exact hcounted.haltWithProcessor.publish

/-- Twins take a program alike. -/
theorem Twins.load {m m' : Machine} (h : m.Twins m') (program : List UInt8) :
    (m.perform (.load program)).Twins (m'.perform (.load program)) := by
  have hmemory : m'.board.memory = m.board.memory := by
    obtain ⟨random, hboard, _⟩ := h.board
    rw [hboard]
    rfl
  rcases m.perform_load_cases program with ⟨hfits, memory, hload, hm⟩ | ⟨hlarge, _, hm⟩
  · rcases m'.perform_load_cases program with ⟨_, memory', hload', hm'⟩ | ⟨hlarge, _⟩
    · rw [hmemory, hload] at hload'
      obtain rfl : memory = memory' := Except.ok.inj hload'
      have hboard := h.board.map (fun b => { b with memory }) (fun _ _ => rfl) (fun _ => rfl)
      rw [hm, hm']
      exact ⟨hboard, rfl, h.steps, h.fault, h.halted⟩
    · exact absurd hfits hlarge
  · rcases m'.perform_load_cases program with ⟨hfits, _⟩ | ⟨_, _, hm'⟩
    · exact absurd hfits hlarge
    · rw [hm, hm']
      exact h

/-- Twins are twins after a reset. -/
theorem Twins.reset {m m' : Machine} (h : m.Twins m') (now : Seconds) :
    (m.reset now).Twins (m'.reset now) := by
  refine ⟨?_, h.program, rfl, rfl, rfl⟩
  rw [reset_board, reset_board, h.program]
  exact h.board.map (·.renewed m.program now) (fun _ _ => rfl) (fun _ => rfl)

/-- What an operation fails with. -/
def faultOf (m : Machine) : Operation → Option Fault
  | .step now => (m.step now).fault
  | .stepProcessor now => (m.board.step now).fault
  | .load program =>
    match m.board.memory.load program with
    | .error fault => some fault
    | .ok _ => none
  | _ => none

end Machine

/-- An operation other than a run, which is so many steps and depends on the rate as well. -/
def Operation.Single : Operation → Prop
  | .run .. => False
  | _ => True

namespace Machine

/-- **Twins fail alike and are twins after every operation.** -/
theorem Twins.perform {m m' : Machine} (h : m.Twins m') {operation : Operation}
    (hsingle : operation.Single) :
    m'.faultOf operation = m.faultOf operation ∧
      (m.perform operation).Twins (m'.perform operation) := by
  cases operation with
  | step now => exact h.step now
  | stepProcessor now =>
      obtain ⟨hfault, hboard⟩ := h.board.step now
      exact ⟨hfault, h.onBoard hboard⟩
  | run options readings schedule turns => exact hsingle.elim
  | key event =>
      exact ⟨rfl, h.onBoard (h.board.map (fun b => { b with keypad := b.keypad.handle event })
        (fun _ _ => rfl) (fun _ => rfl))⟩
  | clearKeypad =>
      exact ⟨rfl, h.onBoard (h.board.map (fun b => { b with keypad := b.keypad.clear })
        (fun _ _ => rfl) (fun _ => rfl))⟩
  | delay now event =>
      exact ⟨rfl, h.onBoard (h.board.map (fun b => { b with delay := b.delay.handle now event })
        (fun _ _ => rfl) (fun _ => rfl))⟩
  | sound now event =>
      exact ⟨rfl, h.onBoard (h.board.map (fun b => { b with sound := b.sound.handle now event })
        (fun _ _ => rfl) (fun _ => rfl))⟩
  | tickTimers now =>
      exact ⟨rfl, h.onBoard (h.board.map (·.tickTimers now) (fun _ _ => rfl) (fun _ => rfl))⟩
  | load program =>
      obtain ⟨random, hboard, _⟩ := h.board
      refine ⟨?_, h.load program⟩
      rw [faultOf, faultOf, hboard]
      rfl
  | resetProcessor =>
      exact ⟨rfl, h.onBoard (h.board.map (fun b => { b with processor := {} })
        (fun _ _ => rfl) (fun _ => rfl))⟩
  | reset now => exact ⟨rfl, h.reset now⟩
  | listen listener => exact ⟨rfl, h.board, h.program, h.steps, h.fault, h.halted⟩
  | unlisten listener =>
      obtain ⟨listeners, hm⟩ := m.perform_unlisten listener
      obtain ⟨listeners', hm'⟩ := m'.perform_unlisten listener
      rw [hm, hm']
      exact ⟨rfl, h.board, h.program, h.steps, h.fault, h.halted⟩

/-! ## What a machine shows -/

/-- All that a reset brings back. -/
structure State where
  processor : Processor
  memory : Memory
  screen : Screen
  keypad : Keypad
  delay : Timer Seconds
  sound : Timer Seconds
  steps : Nat
  fault : Option Fault
  halted : Bool

/-- The state of a machine. -/
def state (m : Machine) : State where
  processor := m.board.processor
  memory := m.board.memory
  screen := m.board.screen
  keypad := m.board.keypad
  delay := m.board.delay
  sound := m.board.sound
  steps := m.steps
  fault := m.fault
  halted := m.halted

/-- What each of some operations fails with, and the state after it. -/
def history (m : Machine) : List Operation → List (Option Fault × State)
  | [] => []
  | operation :: rest =>
    (m.faultOf operation, (m.perform operation).state) :: (m.perform operation).history rest

theorem Twins.state_eq {m m' : Machine} (h : m.Twins m') : m'.state = m.state := by
  obtain ⟨random, hboard, _⟩ := h.board
  rw [state, state, hboard, h.steps, h.fault, h.halted]
  rfl

/-- **Twins show the same faults and states for good.** -/
theorem Twins.history_eq (later : List Operation) (hsingle : ∀ operation ∈ later, operation.Single)
    {m m' : Machine} (h : m.Twins m') : m'.history later = m.history later := by
  induction later generalizing m m' with
  | nil => rfl
  | cons operation rest ih =>
      obtain ⟨hfault, hafter⟩ := h.perform (hsingle operation List.mem_cons_self)
      have hrest := ih (fun o ho => hsingle o (List.mem_cons_of_mem _ ho)) hafter
      rw [history, history, hfault, hafter.state_eq, hrest]

/-! ## The main statement -/

/-- **The parts of a new machine are those that a reset leaves**, if the timers and the screen are
those of every machine. -/
theorem new_board {m : Machine} (hperiods : m.board.Sixtieths)
    (hheight : m.board.screen.height = screenHeight) {memory : Memory}
    (hload : Memory.blank.load m.program = .ok memory) (random : RandomSource) (now : Seconds) :
    { (Machine.new random now).board with memory } = (m.reset now).board.withRandom random := by
  have hmemory : freshMemory m.program = memory := by
    rw [freshMemory, hload]
    rfl
  have hscreen : m.board.screen.clear = {} := by
    rw [Screen.clear, hheight]
  have hdelay : m.board.delay.reset now = Timer.start timerPeriod now := by
    rw [Timer.reset, hperiods.1]
    rfl
  have hsound : m.board.sound.reset now = Timer.start timerPeriod now := by
    rw [Timer.reset, hperiods.2]
    rfl
  rw [reset_board, Board.renewed, hmemory, hscreen, hdelay, hsound]
  rfl

/--
**A reset is switching on.**

A machine may have any past, with programs turned down, faults, halts and resets. After a reset it
is in the state of a new machine that is switched on at the same moment and given the last program
that was not too large. If the new one's source of random numbers has the same numbers to come, both
show the same faults and states after whatever is done to them from then on.
-/
theorem reset_powerOn (random : RandomSource) (start : Seconds) (buzzer : Buzzer) (rate : Quantity)
    (operations : List Operation) (random' : RandomSource) (now : Seconds) (buzzer' : Buzzer)
    (rate' : Quantity) :
    let m := ({ Machine.new random start with buzzer, rate } : Machine).performAll operations
    let blank : Machine := { Machine.new random' now with buzzer := buzzer', rate := rate' }
    let fresh := blank.perform (.load (lastLoaded operations))
    blank.faultOf (.load (lastLoaded operations)) = none ∧
    fresh.state = (m.reset now).state ∧
    (random'.Agrees m.board.random → ∀ later, (∀ operation ∈ later, operation.Single) →
      fresh.history later = (m.reset now).history later) := by
  intro m blank fresh
  have hreached : Reachable Anything m :=
    Reachable.performAll operations (fun _ _ => trivial) (.new random start buzzer rate)
  obtain ⟨hperiods, hprogram⟩ : m.board.Sixtieths ∧ m.program = lastLoaded operations :=
    performAll_kept operations ⟨rfl, rfl⟩
  have hheight : m.board.screen.height = screenHeight := hreached.inRange.height
  clear_value m
  obtain ⟨memory, hload, hfresh⟩ :
      ∃ memory, Memory.blank.load (lastLoaded operations) = .ok memory ∧
        fresh = { blank with
          board := { blank.board with memory }, program := lastLoaded operations } :=
    blank.perform_load (lastLoaded operations) (lastLoaded_length operations)
  have hboard : fresh.board = (m.reset now).board.withRandom random' := by
    rw [hfresh]
    exact new_board hperiods hheight (hprogram ▸ hload) random' now
  refine ⟨?_, ?_, ?_⟩
  · change (match Memory.blank.load (lastLoaded operations) with
      | .error fault => some fault
      | .ok _ => none) = none
    rw [hload]
  · rw [state, hboard, hfresh]
    rfl
  · intro hagrees later hsingle
    have htwins : (m.reset now).Twins fresh := by
      refine ⟨⟨random', hboard, hagrees⟩, ?_, ?_, ?_, ?_⟩
      · rw [hfresh, ← hprogram]; rfl
      · rw [hfresh]; rfl
      · rw [hfresh]; rfl
      · rw [hfresh]; rfl
    exact htwins.history_eq later hsingle

/-- A random number and a return from nowhere, with a program turned down and a key held before. -/
theorem reset_powerOn_rejected_load :
    let large : List UInt8 := List.replicate 3585 0
    let operations : List Operation :=
      [.load [0xC1, 0xFF, 0x00, 0xEE], .load large, .key (.press 3), .step 0.5, .step 0.75,
        .sound 0.75 (.set 9)]
    let start : Machine := { Machine.new (.ofSeed 7) 0.25 with rate := .whole 60 }
    let m := start.performAll operations
    let fresh := (Machine.new m.board.random 1.0).perform (.load [0xC1, 0xFF, 0x00, 0xEE])
    let later : List Operation := [.step 1.25, .key (.press 3), .step 1.5]
    fresh.state = (m.reset 1.0).state ∧ fresh.history later = (m.reset 1.0).history later := by
  intro large operations start m fresh later
  have hlarge : ¬ large.length ≤ programLimit := by
    rw [List.length_replicate]
    decide
  clear_value large
  have hlast : lastLoaded operations = [0xC1, 0xFF, 0x00, 0xEE] := by
    have hfits : 4 ≤ programLimit := by decide
    simp [operations, lastLoaded, Operation.placed, hfits, hlarge]
  obtain ⟨_, hstate, hhistory⟩ := reset_powerOn (.ofSeed 7) 0.25 {} (.whole 60) operations
    m.board.random 1.0 {} standardRate
  rw [hlast] at hstate hhistory
  exact ⟨hstate, hhistory (fun _ => rfl) later (by simp [later, Operation.Single])⟩

end Machine

end ChipEight
