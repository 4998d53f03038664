import ChipEight.Proofs.Accounting
import ChipEight.Proofs.TraceLines

/-!
# The trace shows the last attempts

A frame notes each step down before it is attempted, so the address of a step that faults is noted too
and that of a step which is not attempted is not. Which steps are attempted can be told without the
inspector: of the machines after 0, 1, 2, … of the wanted steps, those that can take one more. A machine
that is halted or keeps a fault cannot, nor can one whose count has reached the limit, and none of these
ever can again while it is only driven. So the machines that attempt a step are the first ones, and
driving by as many steps as there are attempts comes to where the frame does.

Frames follow one another on the same machine, and anything may be done with it in between. The log of
all attempts grows at its end, and the inspector holds the newest thirty-two of their addresses
(`Shows`). That is kept by one note, by a frame of any length, and by frames in turn.

Each step of a frame is left to a run of its own, and at a rate that is no number no run begins. There
the first attempt of a frame breaks off, and so does the frame, with the machine as it was.
-/

namespace ChipEight

open Number Text

variable {σ : Type} {ask : Clock σ} {m : Machine} {clock : σ}

/-! ## Attempts at steps -/

/-- The machine can take one more step within a limit on all its steps. -/
def Machine.mayStep (limit : Option Int) (m : Machine) : Bool :=
  !m.over && limit.all fun limit => (m.steps : Int) < limit

/-- The address of the next step, by its last three digits. -/
def Machine.address (m : Machine) : Int := m.board.processor.pc % 0x1000

/-- The machines after 0, 1, 2, … steps, up to one less than a number of them. -/
def reached (ask : Clock σ) (n : Nat) (m : Machine) (clock : σ) : List Machine :=
  (List.range n).map fun k => (drive ask k m clock).machine

/-- A call for a frame: the steps that are wanted, the limit on all steps, and what was done with the
machine since the call before. -/
structure FrameCall where
  wanted : Int
  limit : Option Int := none
  meanwhile : Machine → Machine := id

namespace FrameCall

/-- The machines that attempt a step in a frame. At a rate that is no number the first attempt breaks
off. -/
def attempts (ask : Clock σ) (call : FrameCall) (m : Machine) (clock : σ) : List Machine :=
  let most := if m.rate.IsNumber then call.wanted.toNat else min 1 call.wanted.toNat
  (reached ask most m clock).filter (Machine.mayStep call.limit)

/-- What a frame comes to: each attempt takes the machine on, unless it breaks off. -/
def comesTo (ask : Clock σ) (call : FrameCall) (m : Machine) (clock : σ) : Driven σ :=
  drive ask (if m.rate.IsNumber then (call.attempts ask m clock).length else 0) m clock

end FrameCall

/-- The machines that attempt a step in frames, one frame after the other. -/
def attemptLog (ask : Clock σ) : List FrameCall → Machine → σ → List Machine
  | [], _, _ => []
  | call :: rest, m, clock =>
    let m := call.meanwhile m
    let d := call.comesTo ask m clock
    call.attempts ask m clock ++ attemptLog ask rest d.machine d.clock

/-- The machines that attempt one of a number of steps without a limit. -/
def tried (ask : Clock σ) (n : Nat) (m : Machine) (clock : σ) : List Machine :=
  (reached ask n m clock).filter fun m => !m.over

/-! ## Driving through the attempts -/

theorem reached_add (ask : Clock σ) (n k : Nat) (m : Machine) (clock : σ) :
    reached ask (n + k) m clock = reached ask n m clock ++
      (List.range k).map fun j => (drive ask (n + j) m clock).machine := by
  rw [reached, List.range_add, List.map_append, List.map_map]
  rfl

/-- A machine that came to its end attempts nothing. -/
theorem tried_over (h : m.over = true) (n : Nat) : tried ask n m clock = [] := by
  refine List.filter_eq_nil_iff.mpr fun m' hm' => ?_
  obtain ⟨k, _, rfl⟩ := List.mem_map.mp hm'
  rw [drive_over h, h]
  exact Bool.false_ne_true

/-- Any other machine attempts a step, and then what that one step comes to makes the attempts. -/
theorem tried_cons (h : m.over = false) (n : Nat) :
    tried ask (n + 1) m clock =
      m :: tried ask n (drive ask 1 m clock).machine (drive ask 1 m clock).clock := by
  have hreached : reached ask (n + 1) m clock =
      m :: reached ask n (drive ask 1 m clock).machine (drive ask 1 m clock).clock := by
    rw [Nat.add_comm, reached_add]
    refine congrArg (m :: ·) (List.map_congr_left fun k _ => ?_)
    rw [drive_add]
  rw [tried, hreached, List.filter_cons_of_pos (by rw [h]; rfl), tried]

/-- **Driving by the number of attempts comes to where driving by all steps does.** -/
theorem drive_tried (ask : Clock σ) (n : Nat) (m : Machine) (clock : σ) :
    drive ask (tried ask n m clock).length m clock = drive ask n m clock := by
  induction n generalizing m clock with
  | zero => rfl
  | succ n ih =>
      cases h : m.over with
      | true => rw [tried_over h, drive_over h, drive_over h]
      | false =>
          rw [tried_cons h, List.length_cons, Nat.add_comm, drive_add, ih, ← drive_add,
            Nat.add_comm]

/-- **All attempts succeed but a last one that faults.** -/
theorem tried_length (ask : Clock σ) (n : Nat) (m : Machine) (clock : σ) :
    (tried ask n m clock).length = (drive ask n m clock).steps +
      if (drive ask n m clock).machine.fault = m.fault then 0 else 1 := by
  induction n generalizing m clock with
  | zero => simp [tried, reached, drive]
  | succ n ih =>
      cases h : m.over with
      | true => simp [tried_over h, drive_over h]
      | false =>
          have hnone : m.fault = none := (Machine.over_eq_false.mp h).2
          rw [tried_cons h, List.length_cons]
          cases hfault : (m.step (ask clock).1).fault with
          | some fault =>
              have hends : (drive ask 1 m clock).machine.over = true := by
                rw [drive_fault h hfault]
                exact Machine.over_of_fault rfl
              rw [tried_over hends, drive_fault h hfault, hnone]
              rfl
          | none =>
              have hkept : (drive ask 1 m clock).machine.fault = m.fault := by
                rw [drive_step h hfault]
                exact (m.step_untouched (ask clock).1).1
              have hone : (drive ask 1 m clock).steps = 1 := by
                rw [drive_step h hfault]
                rfl
              rw [ih, hkept, Nat.add_comm n, drive_add]
              dsimp only
              omega

/-! ## A limit on all steps -/

/-- A machine that is driven may step as long as it can go on and the steps leave room below the
limit. -/
theorem mayStep_drive (ask : Clock σ) (k : Nat) (m : Machine) (clock : σ) (limit : Option Int) :
    (drive ask k m clock).machine.mayStep limit =
      (!(drive ask k m clock).machine.over &&
        limit.all fun limit => ((m.steps + k : Nat) : Int) < limit) := by
  rw [Machine.mayStep]
  cases h : (drive ask k m clock).machine.over with
  | true => rfl
  | false => rw [(drive_keeps ask k m clock).2, (drive_steps ask k m clock).2 h]

/-- **A limit takes away from the attempts what it takes away from the steps.** -/
theorem filter_mayStep_reached (ask : Clock σ) (n : Nat) (m : Machine) (clock : σ)
    (limit : Option Int) : (reached ask n m clock).filter (Machine.mayStep limit) =
      tried ask (Inspector.allowedSteps n limit m.steps).toNat m clock := by
  obtain ⟨allowed, hallowed⟩ :
      ∃ allowed, (Inspector.allowedSteps n limit m.steps).toNat = allowed := ⟨_, rfl⟩
  have hroom : allowed ≤ n ∧ ∀ k < n,
      (limit.all fun limit => ((m.steps + k : Nat) : Int) < limit) = decide (k < allowed) := by
    cases limit with
    | none =>
        simp only [Inspector.allowedSteps, Int.toNat_natCast] at hallowed
        subst hallowed
        exact ⟨Nat.le_refl _, fun k hk => (decide_eq_true hk).symm⟩
    | some limit =>
        simp only [Inspector.allowedSteps] at hallowed
        refine ⟨by omega, fun k hk => ?_⟩
        rw [Option.all_some]
        congr 1
        exact propext (by omega)
  obtain ⟨hle, hroom⟩ := hroom
  -- a machine counts its steps, so the limit parts the machines at one place
  obtain ⟨rest, rfl⟩ := Nat.exists_eq_add_of_le hle
  have hbelow : ∀ m' ∈ reached ask allowed m clock, m'.mayStep limit = !m'.over := by
    intro m' hm'
    obtain ⟨k, hk, rfl⟩ := List.mem_map.mp hm'
    have hk := List.mem_range.mp hk
    rw [mayStep_drive, hroom k (by omega), decide_eq_true hk, Bool.and_true]
  have habove : ∀ m' ∈ (List.range rest).map fun j => (drive ask (allowed + j) m clock).machine,
      ¬ m'.mayStep limit = true := by
    intro m' hm'
    obtain ⟨j, hj, rfl⟩ := List.mem_map.mp hm'
    have hj := List.mem_range.mp hj
    rw [mayStep_drive, hroom (allowed + j) (by omega), decide_eq_false (by omega), Bool.and_false]
    exact Bool.false_ne_true
  rw [hallowed, reached_add, List.filter_append, List.filter_eq_nil_iff.mpr habove,
    List.append_nil, List.filter_congr hbelow, tried]

namespace FrameCall

/-- The steps that the limit leaves of those wanted. -/
def allowed (call : FrameCall) (m : Machine) : Nat :=
  (Inspector.allowedSteps call.wanted call.limit m.steps).toNat

/-- **All allowed steps are tried**, at a rate that is no number the first of them. -/
theorem attempts_eq (call : FrameCall) (m : Machine) (clock : σ) :
    call.attempts ask m clock =
      tried ask (if m.rate.IsNumber then call.allowed m else min 1 (call.allowed m)) m clock := by
  rw [attempts, filter_mayStep_reached]
  congr 1
  unfold allowed Inspector.allowedSteps
  cases call.limit with
  | none | some limit =>
      dsimp only
      split
      all_goals omega

theorem attempts_undefined (h : ¬ m.rate.IsNumber) (call : FrameCall) (clock : σ) :
    call.attempts ask m clock = if call.allowed m = 0 ∨ m.over = true then [] else [m] := by
  rw [attempts_eq, if_neg h]
  cases call.allowed m with
  | zero => rfl
  | succ n =>
      rw [Nat.min_eq_left (Nat.le_add_left 1 n)]
      cases hover : m.over with
      | true => rw [tried_over hover, if_pos (Or.inr rfl)]
      | false =>
          rw [tried_cons hover, if_neg (by simp)]
          rfl

/-- At a rate that is a number a frame comes to what driving by all allowed steps does. -/
theorem comesTo_number (h : m.rate.IsNumber) (call : FrameCall) (clock : σ) :
    call.comesTo ask m clock = drive ask (call.allowed m) m clock := by
  rw [comesTo, if_pos h, attempts_eq, if_pos h, drive_tried]

/-- **All attempts succeed but a last one that faults**, if none breaks off. -/
theorem attempts_length {call : FrameCall}
    (h : m.rate.IsNumber ∨ call.attempts ask m clock = []) :
    (call.attempts ask m clock).length = (call.comesTo ask m clock).steps +
      if (call.comesTo ask m clock).machine.fault = m.fault then 0 else 1 := by
  by_cases hnumber : m.rate.IsNumber
  · rw [comesTo_number hnumber, attempts_eq, if_pos hnumber, tried_length]
  · have hnone : call.attempts ask m clock = [] := h.resolve_left hnumber
    rw [comesTo, if_neg hnumber, hnone, drive, if_pos rfl]
    rfl

end FrameCall

namespace Inspector

/-! ## What the inspector notes down -/

/-- The inspector shows the newest of the addresses in a log. -/
def Shows (i : Inspector) (log : List Int) : Prop := i.trace = log.reverse.take traceLimit

variable {i : Inspector} {log : List Int}

/-- **A note puts an address behind the log.** -/
theorem Shows.record (h : i.Shows log) (pc : Int) :
    (i.record pc).Shows (log ++ [pc % 0x1000]) := by
  rw [Shows] at h ⊢
  rw [List.reverse_append, List.reverse_singleton, List.singleton_append, Inspector.record, h]
  exact congrArg (_ :: ·) (List.take_take ..)

theorem Shows.recorded (h : i.Shows log) : i.recorded = log.drop (log.length - 32) := by
  rw [Inspector.recorded, h, List.reverse_take, List.reverse_reverse, List.length_reverse]

/-- **At a rate that is a number each attempt is noted behind the log**, and nothing else is. -/
theorem runSteps_shows (ask : Clock σ) (n : Nat) {i : Inspector} {b : Bench σ} {log : List Int}
    (hnumber : b.machine.rate.IsNumber) (h : i.Shows log) :
    (runSteps ask n i b).1.Shows
      (log ++ (tried ask n b.machine b.clock).map Machine.address) := by
  induction n generalizing i b log with
  | zero =>
      change i.Shows (log ++ [])
      rwa [List.append_nil]
  | succ n ih =>
      cases hover : b.machine.over with
      | true => rwa [runSteps_over hover, tried_over hover, List.map_nil, List.append_nil]
      | false =>
          rcases Bench.run_drive ask false 1 (Nat.lt_succ_self 1) b hnumber with
            ⟨r, ending, hrun, hreturns, hleft, _⟩ | ⟨hthrottle, _⟩
          · have hnoted := h.record b.machine.board.processor.pc
            rw [runSteps_of_run hover hrun hreturns, tried_cons hover, ← hleft.1, ← hleft.2,
              List.map_cons, List.append_cons]
            cases hfault : r.bench.machine.fault.isSome with
            | true =>
                -- a step that faulted is the last one that is attempted
                rw [tried_over (Machine.over_of_fault hfault), List.map_nil, List.append_nil]
                exact hnoted
            | false => exact ih (hleft.isNumber hnumber) hnoted
          · exact absurd hthrottle (by simp)

/-- At a rate that is no number a frame notes at most one address down, and then it breaks off. -/
theorem runSteps_undefined {b : Bench σ} (hnumber : ¬ b.machine.rate.IsNumber) (n : Nat)
    (i : Inspector) :
    runSteps ask n i b =
      if n = 0 ∨ b.machine.over = true then (i, b, none)
      else (i.record b.machine.board.processor.pc, b, some .undefinedToWhole) := by
  cases n with
  | zero => rfl
  | succ n =>
      cases hover : b.machine.over with
      | true => rw [runSteps_over hover, if_pos (Or.inr rfl)]
      | false =>
          rw [Machine.over] at hover
          rw [runSteps, hover, Bench.run_undefined _ _ hnumber, if_neg (by simp)]
          rfl

/-! ## Frames -/

/-- **A frame puts the addresses of its attempts behind the log.** -/
theorem runFrame_shows (ask : Clock σ) (call : FrameCall) {i : Inspector} (b : Bench σ)
    {log : List Int} (h : i.Shows log) :
    (runFrame ask call.wanted call.limit i b).1.Shows
      (log ++ (call.attempts ask b.machine b.clock).map Machine.address) := by
  change (runSteps ask (call.allowed b.machine) i b).1.Shows _
  by_cases hnumber : b.machine.rate.IsNumber
  · rw [call.attempts_eq, if_pos hnumber]
    exact runSteps_shows ask _ hnumber h
  · rw [call.attempts_undefined hnumber, runSteps_undefined hnumber]
    split
    · rwa [List.map_nil, List.append_nil]
    · exact h.record _

/-- **A frame leaves the machine where its attempts lead**, and is in trouble exactly if one of them
breaks off. -/
theorem runFrame_comesTo (ask : Clock σ) (call : FrameCall) (i : Inspector) (b : Bench σ) :
    ∃ i' b' trouble, runFrame ask call.wanted call.limit i b = (i', b', trouble) ∧
      (call.comesTo ask b.machine b.clock).Left b' ∧
      (trouble = none ↔ b.machine.rate.IsNumber ∨ call.attempts ask b.machine b.clock = []) := by
  change ∃ i' b' trouble, runSteps ask (call.allowed b.machine) i b = (i', b', trouble) ∧ _
  by_cases hnumber : b.machine.rate.IsNumber
  · obtain ⟨i', b', hrun, hleft⟩ := runSteps_drive ask (call.allowed b.machine) i b hnumber
    rw [call.comesTo_number hnumber]
    exact ⟨i', b', none, hrun, hleft, iff_of_true rfl (Or.inl hnumber)⟩
  · rw [FrameCall.comesTo, if_neg hnumber, call.attempts_undefined hnumber,
      runSteps_undefined hnumber]
    split
    · exact ⟨i, b, none, rfl, ⟨rfl, rfl⟩, iff_of_true rfl (Or.inr rfl)⟩
    · refine ⟨_, b, _, rfl, ⟨rfl, rfl⟩, iff_of_false (by simp) ?_⟩
      rintro (h | h)
      · exact hnumber h
      · exact absurd h (by simp)

/-- Frames in turn, whether or not one breaks off. -/
def runFrames (ask : Clock σ) : List FrameCall → Inspector → Bench σ → Inspector × Bench σ
  | [], i, b => (i, b)
  | call :: rest, i, b =>
    let (i, b, _) :=
      i.runFrame ask call.wanted call.limit { b with machine := call.meanwhile b.machine }
    runFrames ask rest i b

/-- **Frames in turn put the addresses of all their attempts behind the log.** -/
theorem runFrames_shows (ask : Clock σ) (calls : List FrameCall) {i : Inspector} (b : Bench σ)
    {log : List Int} (h : i.Shows log) :
    (runFrames ask calls i b).1.Shows
      (log ++ (attemptLog ask calls b.machine b.clock).map Machine.address) := by
  induction calls generalizing i b log with
  | nil => rwa [attemptLog, List.map_nil, List.append_nil]
  | cons call rest ih =>
      let before : Bench σ := { b with machine := call.meanwhile b.machine }
      have hshows := runFrame_shows ask call before h
      obtain ⟨i', b', trouble, hrun, hleft, _⟩ := runFrame_comesTo ask call i before
      rw [hrun] at hshows
      have hrest := ih b' hshows
      rw [hleft.1, hleft.2, List.append_assoc, ← List.map_append] at hrest
      rw [runFrames, hrun]
      exact hrest

/-! ## The main statement -/

/--
**The trace shows the last attempts.**

After any frames in turn, whatever was done with the machine in between, a new inspector holds the
addresses of the last thirty-two machines that attempted a step, the oldest first; all of them if there
are fewer. Each has three digits. The panel shows below its heading that there are none, or it shows
them in lines of eight, the last one first.

What the attempts are is borne out by each frame. It leaves the machine and the clock where they lead,
and unless it is in trouble they are the steps that succeeded and the one that faulted, if one did. It is
in trouble exactly if it attempts a step at a rate that is no number.
-/
theorem trace_shows_attempts (ask : Clock σ) (calls : List FrameCall) (b : Bench σ) :
    let log := (attemptLog ask calls b.machine b.clock).map Machine.address
    let i := (runFrames ask calls {} b).1
    i.recorded = log.drop (log.length - 32) ∧
    (∀ pc ∈ i.recorded, 0 ≤ pc ∧ pc < 0x1000 ∧ (hex 3 pc).length = 3 ∧
      readDigits? 16 0 true (hex 3 pc).toList = some pc.toNat) ∧
    (∃ above, i.lines = above ++ "[Trace]" :: i.traceLines ++ "[Controls]" :: controls) ∧
    (i.recorded = [] → i.traceLines = ["<empty>"]) ∧
    (i.recorded ≠ [] →
      i.traceLines.flatMap (splitAt ' ') = i.recorded.reverse.map (hex 3) ∧
      i.traceLines.length ≤ 4 ∧
      (∀ line ∈ i.traceLines, (splitAt ' ' line).length ≤ 8) ∧
      ∀ line ∈ i.traceLines.dropLast, (splitAt ' ' line).length = 8) ∧
    ∀ (call : FrameCall) (i : Inspector) (b : Bench σ),
      let attempted := call.attempts ask b.machine b.clock
      let d := call.comesTo ask b.machine b.clock
      ∃ i' b' trouble, runFrame ask call.wanted call.limit i b = (i', b', trouble) ∧ d.Left b' ∧
        (trouble = none ↔ b.machine.rate.IsNumber ∨ attempted = []) ∧
        (trouble = none →
          attempted.length = d.steps + if d.machine.fault = b.machine.fault then 0 else 1) := by
  intro log i
  have hnew : ({} : Inspector).Shows [] := rfl
  have hshows : i.Shows log := runFrames_shows ask calls b hnew
  have hrecorded := hshows.recorded
  refine ⟨hrecorded, ?_, ?_, ?_, ?_, ?_⟩
  · intro pc hpc
    rw [hrecorded] at hpc
    obtain ⟨m, _, rfl⟩ := List.mem_map.mp (List.mem_of_mem_drop hpc)
    have hlow : 0 ≤ m.address := Int.emod_nonneg _ (by decide)
    have hhigh : m.address < 0x1000 := Int.emod_lt_of_pos _ (by decide)
    exact ⟨hlow, hhigh, address_digits hlow hhigh⟩
  · exact ⟨_, rfl⟩
  · intro hnone
    exact traceLines_nil (List.reverse_eq_nil_iff.mp hnone)
  · intro hsome
    have hlaid := traceLines_laidOut (mt List.reverse_eq_nil_iff.mpr hsome)
    have hroom : (i.recorded.reverse.map (hex 3)).length ≤ 8 * 4 := by
      rw [List.length_map, List.length_reverse, hrecorded, List.length_drop]
      omega
    exact ⟨hlaid.content, hlaid.length_le hroom, hlaid.room, hlaid.full⟩
  · intro call i b attempted d
    obtain ⟨i', b', trouble, hrun, hleft, htrouble⟩ := runFrame_comesTo ask call i b
    exact ⟨i', b', trouble, hrun, hleft, htrouble,
      fun hnone => FrameCall.attempts_length (htrouble.mp hnone)⟩

/-- A word that is no instruction behind one that is: its step is attempted once, by the third frame,
since the second one has no step left below its limit and after the third one the machine keeps the
fault. -/
theorem trace_shows_attempts_fault_within_limit :
    let m := (Machine.new (.ofSeed 7) 0.25).perform (.load [0x60, 0x05, 0xFF, 0xFF])
    let ask := clockOf fun _ => 0.5
    let b : Bench Nat := { machine := m, clock := 0 }
    let calls : List FrameCall :=
      [{ wanted := 1 }, { wanted := 5, limit := some 1 }, { wanted := 5, limit := some 9 },
        { wanted := 3 }]
    let i := (runFrames ask calls {} b).1
    i.recorded = [0x200, 0x202] ∧ i.traceLines.flatMap (splitAt ' ') = ["202", "200"] := by
  intro m ask b calls i
  obtain ⟨hrecorded, _, _, _, hlines, _⟩ := trace_shows_attempts ask calls b
  have hlog : (attemptLog ask calls b.machine b.clock).map Machine.address = [0x200, 0x202] := by
    decide +kernel
  rw [hlog] at hrecorded
  have hsome : i.recorded ≠ [] := by
    rw [hrecorded]
    exact List.cons_ne_nil _ _
  refine ⟨hrecorded, (hlines hsome).1.trans ?_⟩
  rw [hrecorded]
  decide +kernel

end Inspector

end ChipEight
