import ChipEight.Number.Quantity

/-!
# The buzzer

The machine asks for a tone, one time unit of it at a time, and the buzzer plays a square wave on
a mixer if sound is switched on. The mixer is set up at the first request. If that fails, sound is
switched off for good and the mixer is not spoken to again. A tone is started only when the
channel is idle, so a tone that is still sounding is left alone.

What the mixer was told is kept, and so is the number of requests.
-/

namespace ChipEight

open Number

/-- The most requests that the history shows. -/
abbrev historyLimit : Nat := 256

/-- What a mixer is told. -/
inductive MixerCall
  | opened (sampleRate : Quantity)
  | volume (level : Float)
  | play (samples : Nat)
  | stop

/-- A mixer: whether it is open, why it cannot be opened if so, whether the channel is sounding,
and what it was told, the last call first. -/
structure Mixer where
  isOpen : Bool := false
  refusal : Option String := none
  busy : Bool := false
  calls : List MixerCall := []

namespace Mixer

/-- Keeps a call. -/
def tell (m : Mixer) (call : MixerCall) : Mixer := { m with calls := call :: m.calls }

/-- Opens the mixer unless it is open; the error is the mixer's own wording. -/
def openAt (m : Mixer) (sampleRate : Quantity) : Except String Mixer :=
  if m.isOpen then .ok m
  else match m.refusal with
    | some why => .error why
    | none => .ok ({ m with isOpen := true }.tell (.opened sampleRate))

end Mixer

/-- A square wave: its length and how long it stays on one side, in samples. -/
structure Tone where
  samples : Nat
  halfPeriod : Nat
  deriving DecidableEq, Repr

namespace Tone

/-- How far a sample is from zero. -/
abbrev amplitude : Int := 32767

/-- The most samples that can be counted. -/
abbrev countLimit : Int := 9223372036854775807

/-- The most samples that can be held. -/
abbrev holdLimit : Int := 68719476736

/-- The sample in a place. -/
def sample (t : Tone) (k : Nat) : Int :=
  if k / t.halfPeriod % 2 = 0 then amplitude else -amplitude

/-- The samples as runs of one value each, for a number of samples that are left. -/
def runsFrom (halfPeriod : Nat) (value : Int) : Nat → Nat → List (Int × Nat)
  | 0, _ => []
  | fuel + 1, left =>
    if left = 0 then []
    else if left ≤ halfPeriod then [(value, left)]
    else (value, halfPeriod) :: runsFrom halfPeriod (-value) fuel (left - halfPeriod)

/-- The samples as runs of one value each. -/
def runs (t : Tone) : List (Int × Nat) := runsFrom t.halfPeriod amplitude t.samples t.samples

end Tone

/-- The sound wanted, whether sound is on, the number of requests, the mixer, and the tone once
the mixer is set up.

The tone stands for three things that a set-up makes: the channel to play on, the tone itself, and
the mark that the set-up is done. A set-up that succeeds leaves all three of them, and one that
fails on the way clears those it has made already, so they are at hand together or not at all. -/
structure Buzzer where
  sampleRate : Quantity := .whole 44100
  frequency : Quantity := .real 440.0
  volume : Quantity := .real 0.3
  duration : Quantity := .real (1.0 / 60.0)
  enabled : Bool := false
  requests : Nat := 0
  mixer : Mixer := {}
  tone : Option Tone := none

namespace Buzzer

/-- The number of requests that the history shows. -/
def historyLength (b : Buzzer) : Nat := min historyLimit b.requests

/-- The tone of the wanted length and pitch, both cut to whole samples and at least one. A tone
that is much too long cannot be held, and a longer one not even counted. -/
def render (b : Buzzer) : Except Trouble Tone := do
  let length ← b.sampleRate.mul b.duration
  let samples ← length.toInt
  let twice ← Quantity.mul (.real 2.0) b.frequency
  let half ← b.sampleRate.div twice
  let halfPeriod ← truncate half
  if Tone.countLimit < samples then .error .tooManyToCount
  else if Tone.holdLimit < samples then .error .tooManyToHold
  else .ok ⟨(max 1 samples).toNat, (max 1 halfPeriod).toNat⟩

/-- Sets the mixer up; the error says why not, beside the mixer as it then is. -/
def setUp (b : Buzzer) : Mixer × Except String Tone :=
  match b.mixer.openAt b.sampleRate with
  | .error why => (b.mixer, .error why)
  | .ok mixer =>
    match b.render with
    | .error trouble => (mixer, .error trouble.message)
    | .ok tone =>
      match b.volume.toFloat with
      | .error trouble => (mixer, .error trouble.message)
      | .ok level => (mixer.tell (.volume level), .ok tone)

/-- Starts the tone unless the channel is sounding. -/
def sound (b : Buzzer) (tone : Tone) : Buzzer :=
  if b.mixer.busy then b
  else { b with mixer := { b.mixer with busy := true }.tell (.play tone.samples) }

/-- Asks for one time unit of the tone; the text says why sound was switched off. -/
def emit (b : Buzzer) : Buzzer × Option String :=
  let b := { b with requests := b.requests + 1 }
  if !b.enabled then (b, none)
  else match b.tone with
    | some tone => (b.sound tone, none)
    | none =>
      match b.setUp with
      | (mixer, .error why) => ({ b with mixer, enabled := false }, some why)
      | (mixer, .ok tone) => ({ b with mixer, tone := some tone }.sound tone, none)

/-- Asks a number of times. -/
def emitTimes : Nat → Buzzer → Buzzer
  | 0, b => b
  | n + 1, b => emitTimes n b.emit.1

/-- Silences the channel. -/
def stop (b : Buzzer) : Buzzer :=
  match b.tone with
  | some _ => { b with mixer := { b.mixer with busy := false }.tell .stop }
  | none => b

/-- The channel has come to the end of the tone. -/
def finish (b : Buzzer) : Buzzer := { b with mixer := { b.mixer with busy := false } }

end Buzzer

end ChipEight
