import ChipEight.Machine
import ChipEight.Pacer

/-!
# Running a machine

A run steps a machine until it halts, faults, is told to stop or has used up its budget. Which of
these it was is found out before each step, in this order: halted or faulted already, told to
stop, budget used up; and then the step itself may fault. Pacing waits after a step and changes
nothing but the schedule.

A machine need not come to an end by itself, so a run is given a number of turns to be patient
for. With a budget of n steps, n + 1 turns are enough.

The moments of the steps come from a clock: any state with a way to ask it for a reading, which
leads to another state. So every sequence of readings is the readings of some clock.
-/

namespace ChipEight

open Number

/-- How a clock answers: a reading and the clock after it. -/
abbrev Clock (σ : Type) := σ → Seconds × σ

/-- The clock that moves on by a length of time and then shows where it is. -/
def steadyClock (perStep : Seconds) : Clock Seconds := fun now => (now + perStep, now + perStep)

/-- A machine at work: with its schedule, a clock and a journal. -/
structure Bench (σ : Type) where
  machine : Machine
  clock : σ
  schedule : Schedule := {}
  journal : Journal := {}

variable {σ : Type}

namespace Bench

/-- One step of the machine at the next reading of the clock. -/
def step (ask : Clock σ) (b : Bench σ) : Bench σ × Option Fault :=
  let (now, clock) := ask b.clock
  let attempt := b.machine.step now
  let journal := b.journal.addAll attempt.notes
  ({ b with machine := attempt.machine, clock, journal }, attempt.fault)

/-- A number of steps, fewer if one faults. -/
def stepTimes (ask : Clock σ) : Nat → Bench σ → Bench σ × Option Fault
  | 0, b => (b, none)
  | n + 1, b =>
    match b.step ask with
    | (b, some fault) => (b, some fault)
    | (b, none) => stepTimes ask n b

/-- The processor after each of a number of steps, fewer if the machine is halted or one faults;
the fault then ends the list. -/
def trace (ask : Clock σ) : Nat → Bench σ → Bench σ × List (Except Fault String)
  | 0, b => (b, [])
  | n + 1, b =>
    if b.machine.halted then (b, [])
    else match b.step ask with
      | (b, some fault) => (b, [.error fault])
      | (b, none) =>
        let line := b.machine.board.processor.describe
        let (b, lines) := trace ask n b
        (b, .ok line :: lines)

/-- Keeps the fault that stopped the machine and writes it down. -/
def recordFault (b : Bench σ) (fault : Fault) : Bench σ :=
  { b with
    machine := b.machine.recordFault fault
    journal := b.journal.add (.machineFaulted b.machine.steps fault) }

end Bench

/-- Why a run came to its end. -/
inductive Ending
  | halted
  | stopped
  | exhausted
  | faulted
  | failed (trouble : Trouble)
  deriving DecidableEq, Repr

/-- The budget of steps, the readings of the request to stop, and whether the run is paced. -/
structure RunOptions where
  budget : Option Int := none
  stop : Option (Nat → Bool) := none
  throttle : Bool := true

/-- The budget allows no step after a number of them. -/
def RunOptions.spent (o : RunOptions) (steps : Nat) : Bool :=
  match o.budget with
  | some budget => budget ≤ steps
  | none => false

/-- The k-th reading of the request to stop. -/
def RunOptions.stops (o : RunOptions) (k : Nat) : Bool :=
  match o.stop with
  | some reading => reading k
  | none => false

/-- How far a run has come: the machine at work, the steps, and the readings of the request to
stop. -/
structure Run (σ : Type) where
  bench : Bench σ
  steps : Nat := 0
  readings : Nat := 0

namespace Run

/-- Waits after a step if the run is paced. -/
def pace (o : RunOptions) (r : Run σ) : Run σ × Option Ending :=
  if o.throttle then
    match r.bench.schedule.waitUntil r.steps r.bench.machine.rate with
    | .ok schedule => ({ r with bench := { r.bench with schedule } }, none)
    | .error trouble => (r, some (.failed trouble))
  else (r, none)

/-- One turn: the end of the run, or one step. -/
def turn (ask : Clock σ) (o : RunOptions) (r : Run σ) : Run σ × Option Ending :=
  if r.bench.machine.halted then (r, some .halted)
  else if r.bench.machine.fault.isSome then (r, some .faulted)
  else if o.stops r.readings then ({ r with readings := r.readings + 1 }, some .stopped)
  else if o.spent r.steps then ({ r with readings := r.readings + 1 }, some .exhausted)
  else
    match r.bench.step ask with
    | (bench, some fault) =>
      ({ r with readings := r.readings + 1, bench := bench.recordFault fault }, some .faulted)
    | (bench, none) =>
      pace o { bench, steps := r.steps + 1, readings := r.readings + 1 }

/-- Turns until the run ends, at most a number of them; no ending says that they were too few. -/
def loop (ask : Clock σ) (o : RunOptions) : Nat → Run σ → Run σ × Option Ending
  | 0, r => (r, none)
  | turns + 1, r =>
    match r.turn ask o with
    | (r, some ending) => (r, some ending)
    | (r, none) => loop ask o turns r

end Run

/-- Runs the machine for at most a number of turns. -/
def Bench.run (ask : Clock σ) (o : RunOptions) (turns : Nat) (b : Bench σ) :
    Run σ × Option Ending :=
  match b.schedule.reset 0 b.machine.rate with
  | .error trouble => ({ bench := b }, some (.failed trouble))
  | .ok schedule => Run.loop ask o turns { bench := { b with schedule } }

end ChipEight
