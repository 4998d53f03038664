import ChipEight.Run

/-!
# The inspector

While a machine is paused a panel lies over its screen: the processor, the call stack and the next
instruction as they were when the panel was last brought up to date, the addresses of the last
thirty-two steps that were attempted, and what the keys do. `Inspector.runFrame` is how a window
runs the machine for one frame: each step is noted down before it is attempted.
-/

namespace ChipEight

open Number Text

/-- The most addresses that the inspector keeps. -/
abbrev traceLimit : Nat := 32

/-- The most addresses in one line of the panel. -/
abbrev traceWidth : Nat := 8

/-- The parts of the panel that show the machine as it was. -/
structure Snapshot where
  processor : List String := []
  stack : List String := []
  next : List String := []
  deriving DecidableEq, Repr

/-- The addresses of the last steps, the last one first; the machine as it was; and the line at
the top. -/
structure Inspector where
  trace : List Int := []
  captured : Snapshot := {}
  status : String := ""

/-- A colour by its red, green and blue parts. -/
abbrev Color := Nat × Nat × Nat

/-- A line of the panel and where it is drawn. -/
structure PanelLine where
  text : String
  color : Color
  left : Nat
  top : Nat
  deriving DecidableEq, Repr

namespace Inspector

/-- Notes down that a step at an address is attempted. -/
def record (i : Inspector) (pc : Int) : Inspector :=
  { i with trace := (pc % 0x1000 :: i.trace).take traceLimit }

/-- The addresses of the last steps, the oldest first. -/
def recorded (i : Inspector) : List Int := i.trace.reverse

/-- Some registers in one line. -/
def registerLine (p : Processor) (registers : List Register) : String :=
  "  ".intercalate (registers.map fun x => s!"V{hex 0 x.val}:{hex 2 (p.register x).toNat}")

/-- The lines that show the processor and the timers. -/
def processorLines (m : Machine) : List String :=
  let p := m.board.processor
  let condition := if p.halted then "  HALTED" else if p.waiting then "  WAIT-KEY" else ""
  let delay := hex 2 m.board.delay.value.toNat
  let sound := hex 2 m.board.sound.value.toNat
  [s!"PC:{hex 3 p.pc}  I:{hex 3 p.index}  N:{p.count}",
    registerLine p ((List.finRange 16).take 8),
    registerLine p ((List.finRange 16).drop 8),
    s!"DT:{delay}  ST:{sound}{condition}"]

/-- The lines that show the call stack, the last return address first. -/
def stackLines (m : Machine) : List String :=
  match m.board.processor.stack with
  | [] => ["<empty>"]
  | stack => stack.zipIdx.map fun (address, depth) => s!"{aligned 2 depth}: {hex 3 address}"

/-- The line that shows the next instruction, or why there is none. -/
def nextLines (m : Machine) : List String :=
  let pc := m.board.processor.pc
  match m.board.memory.fetch pc with
  | .error fault => [s!"{hex 3 pc}: {fault.message}"]
  | .ok word => [s!"{hex 3 pc}: {hex 4 word.toNat}  {(Instruction.decode word).mnemonic}"]

/-- Brings the panel up to date. -/
def capture (i : Inspector) (m : Machine) : Inspector :=
  { i with captured := ⟨processorLines m, stackLines m, nextLines m⟩ }

/-- Changes the line at the top. -/
def setStatus (i : Inspector) (status : String) : Inspector := { i with status }

/-- Texts in lines of so many, with one space between them. -/
def inLines (width : Nat) : Nat → List String → List String
  | 0, _ => []
  | _ + 1, [] => []
  | lines + 1, texts => " ".intercalate (texts.take width) :: inLines width lines (texts.drop width)

/-- The lines that show the addresses of the last steps, the last one first. -/
def traceLines (i : Inspector) : List String :=
  match i.trace with
  | [] => ["<empty>"]
  | trace => inLines traceWidth trace.length (trace.map (hex 3))

/-- What the keys do. -/
def controls : List String := ["ESC: toggle debug", "SPACE: resume", "N: step", "Q: quit"]

/-- The lines of the panel. -/
def lines (i : Inspector) : List String :=
  (if i.status.isEmpty then [] else [i.status])
    ++ "[CPU]" :: i.captured.processor
    ++ "[Stack]" :: i.captured.stack
    ++ "[Next]" :: i.captured.next
    ++ "[Trace]" :: i.traceLines
    ++ "[Controls]" :: controls

/-- The colour of headings, which begin with a bracket. -/
def headingColor : Color := (255, 215, 0)

/-- The colour of all other lines. -/
def textColor : Color := (230, 230, 230)

/-- The colour under the lines and how much it covers. -/
def backdrop : List Nat := [0, 0, 0, 196]

/-- The distance of the panel's lines from its left and top. -/
abbrev margin : Nat := 8

/-- The panel's lines in their places, for lines of a height. -/
def panel (i : Inspector) (lineHeight : Nat) : List PanelLine :=
  i.lines.zipIdx.map fun (text, k) =>
    let color := if text.toList.head? == some '[' then headingColor else textColor
    ⟨text, color, margin, margin + k * lineHeight⟩

variable {σ : Type}

/-- The steps that a limit on all steps of the machine leaves of those wanted. -/
def allowedSteps (wanted : Int) (limit : Option Int) (taken : Nat) : Int :=
  match limit with
  | none => wanted
  | some limit => min wanted (max (limit - taken) 0)

/-- A number of steps, fewer if the machine comes to an end. -/
def runSteps (ask : Clock σ) :
    Nat → Inspector → Bench σ → Inspector × Bench σ × Option Trouble
  | 0, i, b => (i, b, none)
  | steps + 1, i, b =>
    if b.machine.halted || b.machine.fault.isSome then (i, b, none)
    else
      let i := i.record b.machine.board.processor.pc
      match b.run ask { budget := some 1, throttle := false } 2 with
      | (r, some (.failed trouble)) => (i, r.bench, some trouble)
      | (r, _) =>
        if r.bench.machine.fault.isSome then (i, r.bench, none)
        else runSteps ask steps i r.bench

/-- Runs the machine for one frame. -/
def runFrame (ask : Clock σ) (wanted : Int) (limit : Option Int) (i : Inspector) (b : Bench σ) :
    Inspector × Bench σ × Option Trouble :=
  runSteps ask (allowedSteps wanted limit b.machine.steps).toNat i b

end Inspector

end ChipEight
