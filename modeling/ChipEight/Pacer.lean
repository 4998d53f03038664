import ChipEight.Number.Quantity
import ChipEight.Timer

/-!
# Pacing

Steps are due at fixed moments: the k-th step of a run at k divided by the rate, counted from a
base time and cut to whole nanoseconds. Whoever is early sleeps for the rest. Whoever is late goes
on at once, and if the lag exceeds a tenth of a second the base is moved up so that the step just
taken counts as on time; the missing steps are then never made up for in a burst.

`Pacer` decides, in whole nanoseconds. `Schedule` carries the decisions out on a nanosecond clock
that sleeping moves on by the nearest whole number.
-/

namespace ChipEight

open Number

/-- The largest lag that is made up for, in nanoseconds. -/
abbrev lagLimit : Int := 100000000

/-- The moment from which the steps are counted, in nanoseconds. -/
structure Pacer where
  base : Int
  deriving DecidableEq, Repr

/-- When a number of steps are due, in nanoseconds after the base. -/
def dueOffset (steps : Int) (rate : Quantity) : Except Trouble Int := do
  let seconds ← Quantity.div (.whole steps) rate
  truncate (seconds * 1000000000)

namespace Pacer

/-- Counts so that what is due at the offset is due now. -/
def anchor (now offset : Int) : Pacer := ⟨now - offset⟩

/-- What to do about a step that is due at the offset: sleep for some nanoseconds, or go on, maybe
from another base. -/
def wait (p : Pacer) (now offset : Int) : Pacer × Option Int :=
  let target := p.base + offset
  if now < target then (p, some (target - now))
  else if lagLimit < now - target then (anchor now offset, none)
  else (p, none)

end Pacer

/-- A pacer, the nanosecond clock it looks at, and how long it slept, the last sleep first. -/
structure Schedule where
  pacer : Pacer := ⟨0⟩
  now : Int := 0
  sleeps : List Seconds := []

namespace Schedule

/-- A schedule counted from a moment. -/
def startingAt (now : Int) : Schedule := { pacer := ⟨now⟩, now }

/-- Moves the clock. -/
def advance (s : Schedule) (nanoseconds : Int) : Schedule :=
  { s with now := s.now + nanoseconds }

/-- Counts so that a number of steps at a rate are due now. Without a positive rate nothing is
ever due. -/
def reset (s : Schedule) (steps : Int) (rate : Quantity) : Except Trouble Schedule :=
  if rate.isNonPositive then .ok { s with pacer := Pacer.anchor s.now 0 }
  else do
    let offset ← dueOffset steps rate
    .ok { s with pacer := Pacer.anchor s.now offset }

/-- Sleeps for a number of nanoseconds, given to the clock in seconds. -/
def sleep (s : Schedule) (nanoseconds : Int) : Except Trouble Schedule := do
  let seconds ← Quantity.div (.whole nanoseconds) (.whole 1000000000)
  let passed ← truncate (seconds * 1000000000 + 0.5).floor
  .ok { s with now := s.now + passed, sleeps := seconds :: s.sleeps }

/-- Waits until a number of steps at a rate are due. -/
def waitUntil (s : Schedule) (steps : Int) (rate : Quantity) : Except Trouble Schedule :=
  if rate.isNonPositive then .ok s
  else do
    let offset ← dueOffset steps rate
    match s.pacer.wait s.now offset with
    | (pacer, some nanoseconds) => Schedule.sleep { s with pacer } nanoseconds
    | (pacer, none) => .ok { s with pacer }

end Schedule

end ChipEight
