import ChipEight.Memory

/-!
# Timers

A timer is a byte that counts down to zero, one for each period of time that has passed. It
remembers when it was last brought down, and a tick brings it down by at most one. A tick that
comes a whole period late and more drops the delay instead of catching up, so a timer that was
not ticked for a while does not race.

Time is of any type that can be compared, added and subtracted: the machine counts seconds in
doubles, and the laws are about exact fractions.
-/

namespace ChipEight

/-- A moment or a length of time as the machine counts it. -/
abbrev Seconds := Float

/-- The count, when it was last brought down, and the period. -/
structure Timer (τ : Type) where
  value : UInt8
  last : τ
  period : τ

namespace Timer

variable {τ : Type}

/-- A timer at zero. -/
def start (period now : τ) : Timer τ := ⟨0, now, period⟩

/-- Sets the count, and the period starts anew. -/
def set (t : Timer τ) (value : Int) (now : τ) : Timer τ :=
  { t with value := byteOf value, last := now }

/-- Sets the count to zero. -/
def reset (t : Timer τ) (now : τ) : Timer τ := { t with value := 0, last := now }

/-- Brings the count down if a period has passed; the truth value tells whether it did. -/
def tick [Add τ] [Sub τ] [LT τ] [LE τ] [DecidableLT τ] [DecidableLE τ] (t : Timer τ) (now : τ) :
    Bool × Timer τ :=
  if t.value = 0 then (false, { t with last := now })
  else if now - t.last < t.period then (false, t)
  else
    let last := t.last + t.period
    (true, { t with
      value := t.value - 1
      last := if t.period ≤ now - last then now else last })

end Timer

/-- A sixtieth of a second. -/
def timerPeriod : Seconds := 1.0 / 60.0

end ChipEight
