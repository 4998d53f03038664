import ChipEight.Run
import ChipEight.Text.Blank

/-!
# Running without a window

A machine is stepped until it halts, faults or meets a condition to stop: its program counter is at
a breakpoint, the budget of steps is used up, the user at the prompt wants to quit, or the time is
over. Halting, breakpoints and the budget are looked at before a step, in this order, so no
instruction at a breakpoint is carried out; the prompt and the time are looked at after one.

As in other runs the number of turns to be patient for is given; a budget of n steps ends within
n + 1 turns.
-/

namespace ChipEight

/-- When to stop. The deadline is a reading of the wall clock. -/
structure StopConditions where
  budget : Option Int := none
  breakpoints : List Int := []
  deadline : Option Seconds := none
  stepping : Bool := false

/-- Why a session without a window came to its end. -/
inductive Finish
  | halted
  | breakpoint
  | budget
  | fault (fault : Fault)
  | quit
  | timeout
  deriving DecidableEq, Repr

/-- The machine at work, the steps taken, the answers that will be given at the prompt, the wall
clock, and the lines printed so far, the last one first. -/
structure Session (σ ω : Type) where
  bench : Bench σ
  wall : ω
  steps : Nat := 0
  answers : List String := []
  printed : List String := []

/-- An answer that ends the session. The words are compared without regard to case; no letter
outside ASCII has one of theirs as its small form. -/
def wantsToQuit (answer : String) : Bool :=
  let word := String.ofList ((Text.trim answer).toList.map Char.toLower)
  word == "q" || word == "quit"

/-- The budget allows no step after a number of them. -/
def StopConditions.spent (c : StopConditions) (steps : Nat) : Bool :=
  match c.budget with
  | some budget => budget ≤ steps
  | none => false

variable {σ ω : Type}

namespace Session

/-- What ends the session before the next step. -/
def finishBefore (c : StopConditions) (s : Session σ ω) : Option Finish :=
  if s.bench.machine.halted then some .halted
  else if c.breakpoints.contains s.bench.machine.board.processor.pc then some .breakpoint
  else if c.spent s.steps then some .budget
  else none

/-- Shows the processor and takes the next answer, the end of the answers being one to quit. -/
def prompt (s : Session σ ω) : Session σ ω × Bool :=
  let s := { s with printed := s.bench.machine.board.processor.describe :: s.printed }
  match s.answers with
  | [] => (s, true)
  | answer :: answers => ({ s with answers }, wantsToQuit answer)

/-- Looks at the wall clock if there is a deadline. -/
def lookAtWall (askWall : Clock ω) (c : StopConditions) (s : Session σ ω) :
    Session σ ω × Option Finish :=
  match c.deadline with
  | none => (s, none)
  | some deadline =>
    let (now, wall) := askWall s.wall
    ({ s with wall }, if deadline ≤ now then some .timeout else none)

/-- What ends the session after a step. -/
def finishAfter (askWall : Clock ω) (c : StopConditions) (s : Session σ ω) :
    Session σ ω × Option Finish :=
  if c.stepping then
    match s.prompt with
    | (s, true) => (s, some .quit)
    | (s, false) => s.lookAtWall askWall c
  else s.lookAtWall askWall c

/-- The end of the session before a step or by its fault, or the step. -/
def attempt (ask : Clock σ) (c : StopConditions) (s : Session σ ω) :
    Session σ ω × Option Finish :=
  match s.finishBefore c with
  | some finish => (s, some finish)
  | none =>
    match s.bench.step ask with
    | (bench, some fault) =>
      ({ s with bench := { bench with machine := bench.machine.recordFault fault } },
        some (.fault fault))
    | (bench, none) => ({ s with bench, steps := s.steps + 1 }, none)

/-- One turn: the end of the session, or one step and what comes after it. -/
def turn (ask : Clock σ) (askWall : Clock ω) (c : StopConditions) (s : Session σ ω) :
    Session σ ω × Option Finish :=
  match s.attempt ask c with
  | (s, some finish) => (s, some finish)
  | (s, none) => s.finishAfter askWall c

/-- Turns until the session ends, at most a number of them; no finish says that they were too
few. -/
def loop (ask : Clock σ) (askWall : Clock ω) (c : StopConditions) :
    Nat → Session σ ω → Session σ ω × Option Finish
  | 0, s => (s, none)
  | turns + 1, s =>
    match s.turn ask askWall c with
    | (s, some finish) => (s, some finish)
    | (s, none) => loop ask askWall c turns s

end Session

end ChipEight
