import ChipEight.Headless.Command
import ChipEight.Proofs.Dump
import ChipEight.Proofs.Finish
import ChipEight.Proofs.Halting
import ChipEight.Proofs.Loading
import ChipEight.Proofs.Success
import ChipEight.Proofs.TypedValues

/-!
# The exit status of a run without a window

The command reads its words, loads the program, runs it and ends with a status. `RunsProgram` is what
its words and files must be like so that it comes to a run, said value by value; a command line for
which it does not hold ends before. What the status says is `StatusSays`: 4 for a fault, or else 0 for
a machine that halted, a breakpoint and a request at the prompt, or else 3 if the time was over, or
else 2. That the last case is nothing but a budget used up follows from the order in which a session
finds its reasons out: a halt comes before the budget, so a machine that halts with the last step of
its budget is a machine that halted.

A run that is over may be followed by a dump. It shows windows that were read, which are in memory,
so it never meets a fault, and the command breaks off then only if the dump cannot be delivered.
-/

namespace ChipEight

open Number

variable {σ ω : Type}

/-! ## Command lines that come to a run -/

/-- A value was given, and it reads as this one. -/
def Given.ReadsAs {α : Type} (read : String → Except ValueRefusal α) (given : Given String) (a : α) :
    Prop :=
  ∃ text, given = .value text ∧ read text = .ok a

/-- The words ask for a run of a program that can be loaded. They are well formed and do not ask for a
listing; every value that a run needs was given; the breakpoints, windows and keys can be read. -/
structure RunsProgram (s : Surroundings) (words : List String) (o : HeadlessOptions)
    (values : HeadlessValues) (rom : Rom) (count : Int) : Prop where
  read : HeadlessOptions.read words = .ok o
  running : o.listing = false
  level : o.level ≠ some .nothing
  breakpoints : List.Forall₂ (Given.ReadsAs readAddress) o.breakpoints values.breakpoints
  windows : List.Forall₂ (Given.ReadsAs readWindow) o.dumpWindows values.windows
  keys : o.keys.ReadsAs readKeys values.keys
  rom : ∃ path, romPath? o.rom s.romVariable = some path ∧ loadRom s.files path = .ok rom
  seed : o.seed ≠ some .nothing
  cycles : o.cycles = .value count
  seconds : o.seconds ≠ some .nothing

/-- The command is about to run the program: a new machine with the program in it and the keys held,
no step taken, and the conditions to stop that were asked for. A number of cycles of zero or less
sets no budget, and a negative number of seconds no deadline. -/
structure HeadlessStart.Ready (start : HeadlessStart σ ω) (world : HeadlessRun σ ω)
    (o : HeadlessOptions) (values : HeadlessValues) (rom : Rom) (count : Int) : Prop where
  given : start.options = o ∧ start.values = values
  budget : start.conditions.budget = if 0 < count then some count else none
  breakpoints : start.conditions.breakpoints = values.breakpoints
  stepping : start.conditions.stepping = o.stepping
  deadline : ∀ deadline, start.conditions.deadline = some deadline ↔
    ∃ length, o.seconds = some (.value length) ∧ ¬ length < 0 ∧
      deadline = (world.askWall world.wall).1 + length
  answers : start.session.answers = world.answers
  clock : start.session.bench.clock = world.clock
  steps : start.session.steps = 0
  machine : ∃ random loaded, (Machine.new random world.start).load rom.bytes = .ok loaded ∧
    start.session.bench.machine =
      { loaded with
        title := some rom.title
        board := { loaded.board with
          keypad := loaded.board.keypad.setKeys (values.keys.map fun key => (key.val : Int)) } }

section Parts

variable {s : Surroundings} {world : HeadlessRun σ ω} {o : HeadlessOptions}
  {values : HeadlessValues} {rom : Rom} {count : Int} {journal : Journal}
  {start : HeadlessStart σ ω}

theorem need_eq_ok {α : Type} {use : ValueUse} {given : Given α} {a : α} :
    given.need use = .ok a ↔ given = .value a := by
  cases given with
  | value a' => simp [Given.need]
  | nothing => simp [Given.need]

theorem readTyped_eq_ok {α : Type} {use : ValueUse} {read : String → Except ValueRefusal α}
    {given : Given String} {a : α} :
    readTyped s journal use read given = .ok a ↔ given.ReadsAs read a := by
  simp only [readTyped, Given.ReadsAs, bind_eq_ok, mapError_eq_ok, need_eq_ok]

theorem values_eq_ok :
    o.values s journal = .ok values ↔
      List.Forall₂ (Given.ReadsAs readAddress) o.breakpoints values.breakpoints ∧
      List.Forall₂ (Given.ReadsAs readWindow) o.dumpWindows values.windows ∧
      o.keys.ReadsAs readKeys values.keys := by
  simp only [HeadlessOptions.values, bind_eq_ok, mapM_eq_ok, readTyped_eq_ok]
  constructor
  · rintro ⟨breakpoints, hbreakpoints, windows, hwindows, keys, hkeys, heq⟩
    obtain rfl := Except.ok.inj heq
    exact ⟨hbreakpoints, hwindows, hkeys⟩
  · rintro ⟨hbreakpoints, hwindows, hkeys⟩
    exact ⟨_, hbreakpoints, _, hwindows, _, hkeys, rfl⟩

theorem level_ok {given : Option (Given Level)} :
    (∃ level, given.mapM (Given.need .upperCase) = .ok level) ↔ given ≠ some .nothing := by
  rcases given with _ | level | _
  · exact ⟨fun _ => by simp, fun _ => ⟨none, rfl⟩⟩
  · exact ⟨fun _ => by simp, fun _ => ⟨some level, rfl⟩⟩
  · exact ⟨fun ⟨_, h⟩ => absurd h (by simp [Given.need]), fun h => absurd rfl h⟩

theorem randomFor_ok {seed : Option (Given Int)} :
    (∃ random, s.randomFor seed = .ok random) ↔ seed ≠ some .nothing := by
  rcases seed with _ | seed | _ <;> simp [Surroundings.randomFor]

theorem budgetOf_eq_ok {cycles : Given Int} {budget : Option Int} :
    budgetOf cycles = .ok budget ↔
      ∃ count, cycles = .value count ∧ budget = if 0 < count then some count else none := by
  simp only [budgetOf, bind_eq_ok, need_eq_ok, Except.ok.injEq, eq_comm (b := budget)]

theorem deadlineFor_ok {askWall : Clock ω} {wall wall' : ω} {seconds : Option (Given Float)}
    {deadline : Option Seconds} (h : deadlineFor askWall wall seconds = .ok (deadline, wall')) :
    seconds ≠ some .nothing ∧ ∀ moment, deadline = some moment ↔
      ∃ length, seconds = some (.value length) ∧ ¬ length < 0 ∧
        moment = (askWall wall).1 + length := by
  rcases seconds with _ | length | _
  · obtain ⟨rfl, _⟩ := Prod.mk.inj (Except.ok.inj h)
    exact ⟨by simp, fun moment => by simp⟩
  · rw [deadlineFor] at h
    by_cases hnegative : length < 0
    · rw [if_pos hnegative] at h
      obtain ⟨rfl, _⟩ := Prod.mk.inj (Except.ok.inj h)
      refine ⟨by simp, fun moment => ⟨fun hsome => absurd hsome (by simp), ?_⟩⟩
      rintro ⟨length', hlength, hpositive, _⟩
      obtain rfl : length = length' := Given.value.inj (Option.some.inj hlength)
      exact absurd hnegative hpositive
    · rw [if_neg hnegative] at h
      obtain ⟨rfl, _⟩ := Prod.mk.inj (Except.ok.inj h)
      refine ⟨by simp, fun moment => ⟨?_, ?_⟩⟩
      · intro hmoment
        exact ⟨length, rfl, hnegative, (Option.some.inj hmoment).symm⟩
      · rintro ⟨length', hlength, _, rfl⟩
        obtain rfl : length = length' := Given.value.inj (Option.some.inj hlength)
        rfl
  · exact absurd h (by simp [deadlineFor])

theorem deadlineFor_of_given {seconds : Option (Given Float)} (h : seconds ≠ some .nothing)
    (askWall : Clock ω) (wall : ω) :
    ∃ deadline, deadlineFor askWall wall seconds = .ok deadline := by
  rcases seconds with _ | length | _
  · exact ⟨_, rfl⟩
  · rw [deadlineFor]
    split
    · exact ⟨_, rfl⟩
    · exact ⟨_, rfl⟩
  · exact absurd rfl h

/-- What making ready needs, and what it makes ready. -/
theorem headlessSession_ok (hfits : rom.bytes.length ≤ programLimit)
    (h : headlessSession s world o values rom journal = .ok start) :
    o.seed ≠ some .nothing ∧ o.seconds ≠ some .nothing ∧
      ∃ count, o.cycles = .value count ∧ start.Ready world o values rom count := by
  simp only [headlessSession, bind_eq_ok, mapError_eq_ok, budgetOf_eq_ok, Prod.exists] at h
  obtain ⟨random, hrandom, budget, ⟨count, hcount, rfl⟩, deadline, wall, hdeadline, hstart⟩ := h
  obtain ⟨hseconds, hmoment⟩ := deadlineFor_ok hdeadline
  obtain ⟨loaded, hload, hrom⟩ := withRom_of_fits (m := Machine.new random world.start) hfits
  rw [hrom] at hstart
  obtain rfl := Except.ok.inj hstart
  refine ⟨randomFor_ok.mp ⟨random, hrandom⟩, hseconds, count, hcount, ?_⟩
  exact ⟨⟨rfl, rfl⟩, rfl, rfl, rfl, hmoment, rfl, rfl, rfl, random, loaded, hload, rfl⟩

theorem headlessSession_of_given (hseed : o.seed ≠ some .nothing) (hcycles : o.cycles = .value count)
    (hseconds : o.seconds ≠ some .nothing) :
    ∃ start, headlessSession s world o values rom journal = .ok start := by
  obtain ⟨random, hrandom⟩ : ∃ random, s.randomFor o.seed = .ok random := randomFor_ok.mpr hseed
  obtain ⟨⟨deadline, wall⟩, hdeadline⟩ :=
    deadlineFor_of_given hseconds world.askWall world.wall
  simp only [headlessSession, bind_eq_ok, mapError_eq_ok, budgetOf_eq_ok]
  exact ⟨_, random, hrandom, _, ⟨count, hcycles, rfl⟩, _, hdeadline, rfl⟩

/-- **The command comes to a run only by a command line that asks for one.** -/
theorem runsProgram_of_start {words : List String} (h : headlessStart s world words = .ok start) :
    ∃ rom count, RunsProgram s words start.options start.values rom count ∧
      start.Ready world start.options start.values rom count := by
  simp only [headlessStart, bind_eq_ok, mapError_eq_ok] at h
  obtain ⟨o, hread, level, hlevel, hstart⟩ := h
  split at hstart
  · exact absurd hstart (by simp)
  · rename_i path hpath
    simp only [bind_eq_ok, mapError_eq_ok, values_eq_ok] at hstart
    obtain ⟨values, ⟨hbreakpoints, hwindows, hkeys⟩, rom, hrom, hsession⟩ := hstart
    split at hsession
    · exact absurd hsession (by simp)
    · rename_i hrunning
      obtain ⟨hseed, hseconds, count, hcycles, hready⟩ :=
        headlessSession_ok (loadRom_fits hrom) hsession
      obtain ⟨rfl, rfl⟩ := hready.given
      exact ⟨rom, count,
        ⟨hread, Bool.eq_false_iff.mpr hrunning, level_ok.mp ⟨level, hlevel⟩, hbreakpoints, hwindows,
          hkeys, ⟨path, hpath, hrom⟩, hseed, hcycles, hseconds⟩, hready⟩

/-- **A command line that asks for a run comes to it.** -/
theorem start_of_runsProgram {words : List String} (h : RunsProgram s words o values rom count)
    (world : HeadlessRun σ ω) :
    ∃ start, headlessStart s world words = .ok start ∧ start.Ready world o values rom count := by
  obtain ⟨level, hlevel⟩ := level_ok.mpr h.level
  obtain ⟨path, hpath, hrom⟩ := h.rom
  let journal : Journal := { threshold := some (s.threshold level) }
  have hsession : ∃ start, headlessSession s world o values rom
      (journal.add (.romRead rom.bytes.length rom.path.text)) = .ok start :=
    headlessSession_of_given h.seed h.cycles h.seconds
  obtain ⟨start, hsession⟩ := hsession
  obtain ⟨_, _, count', hcount', hready⟩ := headlessSession_ok (loadRom_fits hrom) hsession
  obtain rfl : count = count' := Given.value.inj (h.cycles.symm.trans hcount')
  refine ⟨start, ?_, hready⟩
  -- what is read does not depend on the journal, so the parts can be put in one by one
  simp only [headlessStart, bind_eq_ok, mapError_eq_ok]
  refine ⟨o, h.read, level, hlevel, ?_⟩
  rw [hpath]
  simp only [bind_eq_ok, mapError_eq_ok, values_eq_ok]
  refine ⟨values, ⟨h.breakpoints, h.windows, h.keys⟩, rom, hrom, ?_⟩
  rw [h.running]
  exact hsession

end Parts

/-! ## What the status says -/

/-- The status of a run by its report and the machine it leaves. -/
structure StatusSays (count : Int) (m : Machine) (r : SessionReport) (code : Nat) : Prop where
  fault : code = 4 ↔ r.fault.isSome = true
  fine : code = 0 ↔ r.fault = none ∧ (m.halted = true ∨ r.breakpoint = true ∨ r.quit = true)
  late : code = 3 ↔
    (r.fault = none ∧ m.halted = false ∧ r.breakpoint = false ∧ r.quit = false) ∧ r.timeout = true
  rest : code = 2 ↔
    (r.fault = none ∧ m.halted = false ∧ r.breakpoint = false ∧ r.quit = false) ∧ r.timeout = false
  /-- What is left is a budget used up by a machine that could go on. -/
  spent : code = 2 → 0 < count ∧ r.budget = true ∧ (r.steps : Int) = count ∧
    (m.steps : Int) = count ∧ m.halted = false
  /-- A machine that halts with the last step of the budget or at the last moment has halted. -/
  halted : m.halted = true → code = 0
  unlimited : count ≤ 0 → code ≠ 2
  /-- No run ends without a reason. -/
  reason : r.fault.isSome = true ∨ m.halted = true ∨ r.breakpoint = true ∨ r.quit = true ∨
    r.timeout = true ∨ r.budget = true

section Status

variable {ask : Clock σ} {askWall : Clock ω} {c : StopConditions} {s s' : Session σ ω}
  {last : Bench σ} {finish : Finish} {count : Int}

/-- The reason that a report gives is the one that decided. -/
theorem Session.Finished.decides (h : s.Finished ask askWall c s' (s'.report finish) last) :
    s.Decides ask askWall c s'.steps last finish := by
  cases finish with
  | quit => exact h.quit.mp rfl
  | timeout => exact h.timeout.mp rfl
  | halted => exact h.rest.mp (s'.report_flags .halted)
  | breakpoint => exact h.breakpoint.mp rfl
  | budget => exact h.budget.mp rfl
  | fault cause => exact (h.fault cause).mp rfl

/-- A halt comes before a breakpoint, the budget and a fault, so none of these ends the session of a
halted machine. -/
theorem Session.Finished.running (h : s.Finished ask askWall c s' (s'.report finish) last)
    (hrank : Finish.halted.rank < finish.rank) : s'.bench.machine.halted = false := by
  have hlast : ¬ last.machine.halted = true := h.decides.not_due .halted hrank
  rw [← h.halted.1, h.halted.2]
  exact Bool.eq_false_iff.mpr hlast

/-- **A budget that ends a session was positive and is used up to the last step.** -/
theorem Session.Finished.used_up (h : s.Finished ask askWall c s' (s'.report .budget) last)
    (hstart : s.steps = 0) (hbudget : c.budget = if 0 < count then some count else none) :
    0 < count ∧ (s'.steps : Int) = count := by
  obtain ⟨budget, hsome, hspent⟩ := h.decides.1
  rw [hbudget] at hsome
  split at hsome
  · rename_i hpositive
    obtain rfl := Option.some.inj hsome
    -- as many as the budget at least, because it ended the session, and at most, because nothing
    -- goes past it
    have hwithin : (s'.steps : Int) ≤ count := h.within count (hbudget.trans (if_pos hpositive))
      (Int.le_of_lt hpositive)
    rw [hstart] at hspent
    exact ⟨hpositive, by omega⟩
  · exact absurd hsome (by simp)

/-- **The status of a session that ended says how it ended.** -/
theorem statusSays_of_finished (h : s.Finished ask askWall c s' (s'.report finish) last)
    (hstart : s.steps = 0) (hnew : s.bench.machine.steps = 0)
    (hbudget : c.budget = if 0 < count then some count else none) :
    StatusSays count s'.bench.machine (s'.report finish)
      (Finish.status s'.bench.machine.halted (some finish)) := by
  have hcounted : s'.bench.machine.steps = s'.steps := by
    have hsteps : s'.bench.machine.steps = s.bench.machine.steps + s'.steps := h.counted
    rw [hsteps, hnew, Nat.zero_add]
  cases finish with
  | fault cause =>
      have hrun := h.running (show 2 < 5 by decide)
      rw [hrun]
      constructor <;> simp [Finish.status, Session.report, Finish.fault?, hrun]
  | breakpoint =>
      have hrun := h.running (by decide)
      rw [hrun]
      constructor <;> simp [Finish.status, Session.report, Finish.fault?, hrun]
  | budget =>
      have hrun := h.running (by decide)
      obtain ⟨hpositive, hused⟩ := h.used_up hstart hbudget
      rw [hrun]
      constructor <;> simp [Finish.status, Session.report, Finish.fault?, hrun, hcounted, hused,
        hpositive]
  | halted =>
      have hhalted : s'.bench.machine.halted = true := by
        rw [← h.halted.1, h.halted.2]
        exact h.decides.1
      rw [hhalted]
      constructor <;> simp [Finish.status, Session.report, Finish.fault?, hhalted]
  | quit =>
      constructor <;> simp [Finish.status, Session.report, Finish.fault?]
  | timeout =>
      -- the time may be over just as the machine halts
      cases hhalted : s'.bench.machine.halted with
      | true => constructor <;> simp [Finish.status, Session.report, Finish.fault?, hhalted]
      | false => constructor <;> simp [Finish.status, Session.report, Finish.fault?, hhalted]

end Status

/-- A machine that is about to run a program has taken no step, and its first instruction is that of the
program. -/
theorem HeadlessStart.Ready.fresh {start : HeadlessStart σ ω} {world : HeadlessRun σ ω}
    {o : HeadlessOptions} {values : HeadlessValues} {rom : Rom} {count : Int}
    (h : start.Ready world o values rom count) :
    start.session.bench.machine.steps = 0 ∧
      ∃ memory, Memory.blank.load rom.bytes = .ok memory ∧
        start.session.bench.machine.AtWork memory programStart := by
  obtain ⟨random, loaded, hload, hmachine⟩ := h.machine
  rw [Machine.load] at hload
  split at hload
  · exact absurd hload (by simp)
  · rename_i memory hmemory
    obtain rfl := Except.ok.inj hload
    rw [hmachine]
    exact ⟨rfl, memory, hmemory, rfl, rfl, rfl, rfl, rfl⟩

/-- A run that ended and whose dump was written ends the command with its status. -/
theorem headlessCommand_of_start {s : Surroundings} {world : HeadlessRun σ ω} {words : List String}
    {start : HeadlessStart σ ω} {session : Session σ ω} {finish : Finish}
    {dumped : FileTree × List Printed} (hstart : headlessStart s world words = .ok start)
    (hloop : Session.loop world.ask world.askWall start.conditions world.patience start.session =
      (session, some finish))
    (hdump : dumpMemory s.files start.options start.values.windows
      session.bench.machine.board.memory = .ok dumped) :
    (headlessCommand s world words).exit =
      .status (Finish.status session.bench.machine.halted (some finish)) := by
  rw [headlessCommand, hstart]
  simp only [hloop, headlessReport, hdump]

/-! ## After the run -/

/-- A dump cannot be delivered: its path was left out, or the file cannot be written. -/
inductive Undelivered (files : FileTree) (o : HeadlessOptions) (dump : Printed) : Breakdown → Prop
  | noPath : o.dumpPath = some .nothing → Undelivered files o dump (.blank .path)
  | unwritable {text : String} {why : FileTrouble} : o.dumpPath = some (.value text) →
      files.write (Path.ofText text) dump.toBytes = .error why →
      Undelivered files o dump (.file (Path.ofText text) why)

theorem deliverDump_error {files : FileTree} {o : HeadlessOptions} {dump : Printed} {why : Breakdown}
    (h : deliverDump files o.dumpPath dump = .error why) : Undelivered files o dump why := by
  unfold deliverDump at h
  split at h
  · exact absurd h (by simp)
  · rename_i hpath
    obtain rfl := Except.error.inj h
    exact .noPath hpath
  · rename_i text hpath
    simp only at h
    split at h
    · exact absurd h (by simp)
    · rename_i trouble hwrite
      obtain rfl := Except.error.inj h
      exact .unwritable hpath hwrite

/-- **A dump of windows in memory breaks off for its delivery alone.** It is worked out before the
file is touched, and never meets a fault. -/
theorem dumpMemory_error {files : FileTree} {o : HeadlessOptions} {windows : List MemoryWindow}
    {memory : Memory} {why : Breakdown} (hin : ∀ w ∈ windows, w.InMemory)
    (h : dumpMemory files o windows memory = .error why) :
    ∃ dump, dumpOf memory windows o.binary = .ok dump ∧ Undelivered files o dump why := by
  obtain ⟨dump, hdump⟩ := dumpOf_of_inMemory memory hin o.binary
  rw [dumpMemory, hdump] at h
  split at h
  · exact absurd h (by simp)
  · exact ⟨dump, hdump, deliverDump_error h⟩

/-- The windows of a command line are in memory. -/
theorem RunsProgram.windows_inMemory {s : Surroundings} {words : List String} {o : HeadlessOptions}
    {values : HeadlessValues} {rom : Rom} {count : Int}
    (h : RunsProgram s words o values rom count) : ∀ w ∈ values.windows, w.InMemory := by
  have hread : List.Forall₂ (fun w given => w.InMemory ∧ Given.ReadsAs readWindow given w)
      values.windows o.dumpWindows := by
    refine List.Forall₂.imp (fun w given hgiven => ⟨?_, hgiven⟩) h.windows.flip
    obtain ⟨text, _, htext⟩ := hgiven
    have hdenotes := windowDenotes_of_read htext
    have hwithin := hdenotes.within
    exact ⟨hdenotes.nonneg, hdenotes.ordered, by rw [memorySize_eq]; omega⟩
  exact ((List.forall₂_and_left _ _).mp hread).1

/-- **After its run a command breaks off only because its dump cannot be delivered**: that of the memory
which the run left. -/
theorem headlessCommand_breakdown {s : Surroundings} {words : List String} {o : HeadlessOptions}
    {values : HeadlessValues} {rom : Rom} {count : Int}
    (hruns : RunsProgram s words o values rom count) (world : HeadlessRun σ ω) {why : Breakdown}
    (h : (headlessCommand s world words).exit = .breakdown why) :
    ∃ start session finish dump, headlessStart s world words = .ok start ∧
      Session.loop world.ask world.askWall start.conditions world.patience start.session =
        (session, finish) ∧
      dumpOf session.bench.machine.board.memory values.windows o.binary = .ok dump ∧
      Undelivered s.files o dump why := by
  obtain ⟨start, hstart, hready⟩ := start_of_runsProgram hruns world
  obtain ⟨rfl, rfl⟩ := hready.given
  obtain ⟨session, finish, hloop⟩ : ∃ session finish,
      Session.loop world.ask world.askWall start.conditions world.patience start.session =
        (session, finish) := ⟨_, _, rfl⟩
  rw [headlessCommand, hstart] at h
  simp only [hloop, headlessReport] at h
  split at h
  · rename_i trouble hdump
    obtain rfl := Exit.breakdown.inj h
    obtain ⟨dump, hdumped, hundelivered⟩ := dumpMemory_error hruns.windows_inMemory hdump
    exact ⟨start, session, finish, dump, hstart, hloop, hdumped, hundelivered⟩
  · exact absurd h (by simp)

/-! ## The main statement -/

/--
**The exit status says how the run ended.**

The command comes to a run exactly for the command lines that ask for one. If the run then comes to its
end and the dump that was asked for can be written, the command ends with a status, and the status
says what ended the run: the first reason to end, of the steps of the machine that was made ready.
-/
theorem headlessCommand_status (s : Surroundings) (world : HeadlessRun σ ω) (words : List String) :
    (∀ start, headlessStart s world words = .ok start →
      ∃ rom count, RunsProgram s words start.options start.values rom count) ∧
    ∀ o values rom count, RunsProgram s words o values rom count →
      ∃ start, headlessStart s world words = .ok start ∧
        start.Ready world o values rom count ∧
        ∀ session finish dumped,
          Session.loop world.ask world.askWall start.conditions world.patience start.session =
            (session, some finish) →
          dumpMemory s.files o values.windows session.bench.machine.board.memory = .ok dumped →
          ∃ code last, (headlessCommand s world words).exit = .status code ∧
            start.session.Finished world.ask world.askWall start.conditions session
              (session.report finish) last ∧
            StatusSays count session.bench.machine (session.report finish) code := by
  constructor
  · intro start hstart
    obtain ⟨rom, count, hruns, _⟩ := runsProgram_of_start hstart
    exact ⟨rom, count, hruns⟩
  · intro o values rom count hruns
    obtain ⟨start, hstart, hready⟩ := start_of_runsProgram hruns world
    refine ⟨start, hstart, hready, ?_⟩
    intro session finish dumped hloop hdump
    obtain ⟨hnew, _, _, hwork⟩ := hready.fresh
    obtain ⟨last, hfinished⟩ := Session.loop_finished hready.steps hwork.fault hloop
    obtain ⟨rfl, rfl⟩ := hready.given
    exact ⟨_, last, headlessCommand_of_start hstart hloop hdump, hfinished,
      statusSays_of_finished hfinished hready.steps hnew hready.budget⟩

/-- The end mark alone, with a budget of one step: the machine halts with it. -/
theorem headlessCommand_status_halt_in_budget :
    let ask := clockOf fun _ => 0.5
    let s : Surroundings := { files := { entries := [(.inside ["p"], .file [0x0A])] } }
    let world : HeadlessRun Nat Nat :=
      { start := 0.25, clock := 0, ask, wall := 0, askWall := ask, answers := [], patience := 2 }
    let words := ["p", "--cycles", "1"]
    ∃ start session finish, headlessStart s world words = .ok start ∧
      Session.loop ask ask start.conditions 2 start.session = (session, some finish) ∧
      session.steps = 1 ∧ (headlessCommand s world words).exit = .status 0 := by
  intro ask s world words
  let o : HeadlessOptions := { rom := some "p", cycles := .value 1 }
  let rom : Rom := ⟨[0x0A], "P", Path.ofText "p"⟩
  have hruns : RunsProgram s words o ⟨[], [], []⟩ rom 1 :=
    { read := rfl
      running := rfl
      level := by simp [o]
      breakpoints := .nil
      windows := .nil
      keys := ⟨"", rfl, rfl⟩
      rom := ⟨Path.ofText "p", rfl, rfl⟩
      seed := by simp [o]
      cycles := rfl
      seconds := by simp [o] }
  obtain ⟨start, hstart, hready, hstatus⟩ :=
    (headlessCommand_status s world words).2 o ⟨[], [], []⟩ rom 1 hruns
  obtain ⟨_, memory, hload, hwork⟩ := hready.fresh
  obtain ⟨session, finish, hloop⟩ : ∃ session finish,
      Session.loop ask ask start.conditions 2 start.session = (session, some finish) :=
    Session.loop_returns_of_budget hready.budget (by decide) (by decide) start.session
  obtain ⟨code, last, hexit, hfinished, hsays⟩ := hstatus session finish _ hloop rfl
  refine ⟨start, session, finish, hstart, hloop, ?_⟩
  clear_value s
  have hmark : start.session.bench.machine.board.AtEndMark := by
    refine ⟨?_, ?_, ?_⟩
    · rw [hwork.pc]; decide
    · rw [hwork.pc]; decide
    · rw [hwork.pc, hwork.memory]
      exact Memory.byteAt_load hload 0x200
  let now := (ask start.session.bench.clock).1
  obtain ⟨hboard, _⟩ := hmark.step hwork.awake now
  have hstep : (start.session.bench.step ask).2 = none :=
    (Machine.step_fault hwork.running now).trans hboard
  have hhalted : (start.session.bench.step ask).1.machine.halted = true :=
    (Machine.step_of_success hwork.running hboard).2.trans
      ((Board.step_halted_iff hwork.awake hboard).mpr hmark)
  have hsteps : session.steps = 1 := by
    have hle : (session.steps : Int) ≤ 1 := hfinished.within 1 hready.budget (by decide)
    have hbreak : start.session.bench.machine.board.processor.pc ∉ start.conditions.breakpoints := by
      rw [hready.breakpoints]
      exact List.not_mem_nil
    have hspent : start.conditions.spent start.session.steps = false := by
      rw [StopConditions.spent, hready.budget, hready.steps]
      rfl
    have hpos : 0 < session.steps :=
      hfinished.steps_pos (Session.not_due_at_start hwork.running hbreak hspent hstep)
    omega
  refine ⟨hsteps, ?_⟩
  have hlast : last.machine.halted = true := by
    have hreached : start.session.bench.stepTimes ask session.steps = (last, none) :=
      hfinished.reached
    rw [hsteps, Bench.stepTimes_succ hstep] at hreached
    rw [← (Prod.mk.inj hreached).1]
    exact hhalted
  have hend : session.bench.machine.halted = true := by
    rw [← hfinished.halted.1, hfinished.halted.2]
    exact hlast
  rw [hexit, hsays.halted hend]

end ChipEight
