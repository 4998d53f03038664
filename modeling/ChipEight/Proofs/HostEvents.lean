import ChipEight.Proofs.Accounting
import ChipEight.Proofs.Activity
import ChipEight.Proofs.KeyWait

/-!
# What an event does to a window

An event may begin or end a pause, close the window, reach the keypad, or, with the step key in a
pause, have the machine take a step. The last is the only one in which the machine takes part. So
an event is read here by its ends: it was the step key in a pause (`handle_step`), or it changed
the keypad by what was passed on and nothing else of the machine (`handle_quiet`). Neither end
touches the budget, and whether the window is paused afterwards can be told from the events.

What is passed on depends on the pause for keys that go down only. A key that comes up is passed on
always.
-/

namespace ChipEight

variable {σ : Type}

/-! ## Told from the events -/

/-- Whether a window is paused after events, if it was before them. -/
def pausedAfter (paused : Bool) (events : List HostEvent) : Bool :=
  (events.foldl Tally.hear { paused }).paused

/-- An event has the machine take a single step: the step key goes down in a pause. -/
def HostEvent.Steps (paused : Bool) (event : HostEvent) : Prop :=
  event = .keyDown stepCode ∧ paused = true

instance (event : HostEvent) (paused : Bool) : Decidable (event.Steps paused) :=
  inferInstanceAs (Decidable (event = .keyDown stepCode ∧ paused = true))

namespace Tally

/-- Whether a window is paused is all that the next pause depends on. -/
theorem hear_paused (t : Tally) (event : HostEvent) :
    (t.hear event).paused = pausedAfter t.paused [event] := by
  cases event with
  | keyDown code =>
      simp only [pausedAfter, List.foldl_cons, List.foldl_nil, hear, hearPaused]
      split
      · rfl
      · split
        · split
          · rfl
          · split
            · rfl
            · split <;> rfl
        · rfl
  | quit | keyUp code | other => rfl

theorem foldl_hear_paused (t : Tally) (events : List HostEvent) :
    (events.foldl hear t).paused = pausedAfter t.paused events := by
  -- the tally is compared with one that heard nothing else but is in the same pause
  have hsame : ∀ (t t' : Tally), t.paused = t'.paused →
      (events.foldl hear t).paused = (events.foldl hear t').paused := by
    induction events with
    | nil => exact fun _ _ h => h
    | cons event rest ih =>
        intro t t' h
        exact ih _ _ (by rw [hear_paused, hear_paused, h])
  exact hsame t { paused := t.paused } rfl

end Tally

theorem pausedAfter_append (paused : Bool) (events later : List HostEvent) :
    pausedAfter paused (events ++ later) = pausedAfter (pausedAfter paused events) later := by
  rw [pausedAfter, List.foldl_append, Tally.foldl_hear_paused]
  rfl

/-- What an event passes on to the keypad, in a pause or not. -/
def HostEvent.forwarded (map : KeyMap) (paused : Bool) : HostEvent → Option KeyEvent
  | .keyDown code =>
    if code = escapeCode ∨ paused = true then none
    else (map.key? code).map fun key => .press key.val
  | .keyUp code => (map.key? code).map fun key => .release key.val
  | .quit | .other => none

/-- What events pass on to the keypad in turn. -/
def forwardedAll (map : KeyMap) (paused : Bool) : List HostEvent → List KeyEvent
  | [] => []
  | event :: rest =>
    (event.forwarded map paused).toList ++ forwardedAll map (pausedAfter paused [event]) rest

/-- **The ends of passing on**, if the key that begins and ends pauses stands for none: nothing is
passed on, and then no host key that stands for one went down outside a pause or came up; or one
did, and its key is. -/
theorem HostEvent.forwarded_cases {map : KeyMap} (hescape : map.key? escapeCode = none)
    (paused : Bool) (event : HostEvent) :
    (event.forwarded map paused = none ∧ ∀ code key, map.key? code = some key →
      ¬ (event = .keyDown code ∧ paused = false) ∧ event ≠ .keyUp code) ∨
    (∃ code key, event = .keyDown code ∧ paused = false ∧ map.key? code = some key ∧
      event.forwarded map paused = some (.press key.val)) ∨
    (∃ code key, event = .keyUp code ∧ map.key? code = some key ∧
      event.forwarded map paused = some (.release key.val)) := by
  cases event with
  | quit | other => exact Or.inl ⟨rfl, by simp⟩
  | keyUp code =>
      rw [forwarded]
      cases hkey : map.key? code with
      | some key => exact Or.inr (Or.inr ⟨code, key, rfl, hkey, rfl⟩)
      | none =>
          refine Or.inl ⟨rfl, fun code' key hkey' => ⟨by simp, ?_⟩⟩
          rintro ⟨⟩
          rw [hkey] at hkey'
          exact absurd hkey' (by simp)
  | keyDown code =>
      rw [forwarded]
      by_cases hcommand : code = escapeCode ∨ paused = true
      · rw [if_pos hcommand]
        refine Or.inl ⟨rfl, fun code' key hkey' => ⟨?_, by simp⟩⟩
        rintro ⟨⟨⟩, hpaused⟩
        rcases hcommand with rfl | hpaused'
        · rw [hescape] at hkey'
          exact absurd hkey' (by simp)
        · rw [hpaused] at hpaused'
          exact absurd hpaused' (by simp)
      · rw [if_neg hcommand]
        have hpaused : paused = false :=
          Bool.eq_false_iff.mpr fun hpaused => hcommand (Or.inr hpaused)
        cases hkey : map.key? code with
        | some key => exact Or.inr (Or.inl ⟨code, key, rfl, hpaused, hkey, rfl⟩)
        | none =>
            refine Or.inl ⟨rfl, fun code' key hkey' => ⟨?_, by simp⟩⟩
            rintro ⟨⟨⟩, _⟩
            rw [hkey] at hkey'
            exact absurd hkey' (by simp)

theorem Keypad.handle_release (k : Keypad) (key : Key) :
    k.handle (.release key.val) = k.release key := by
  have hkey : Key.ofInt key.val = .ok key := dif_pos ⟨by omega, by omega⟩
  rw [handle, hkey]

namespace WindowState

variable (time : WindowTime σ) (o : WindowOptions) (w : WindowState σ)

/-- The keypad of a window's machine. -/
def keypad (w : WindowState σ) : Keypad := w.bench.machine.board.keypad

/-- The window when an iteration begins: the clock has moved on. -/
def begun (time : WindowTime σ) (w : WindowState σ) : WindowState σ :=
  { w with bench := { w.bench with clock := time.passFrame w.bench.clock } }

/-- An iteration: the clock moves on, the events are dealt with, the machine does its part, and the
frame is shown. -/
theorem frame_eq (events : List HostEvent) :
    w.frame time o events =
      match (w.begun time).handleAll time o events with
      | (heard, some trouble) => (heard, .error trouble)
      | (heard, none) =>
        match heard.advance time o with
        | (after, some trouble) => (after, .error trouble)
        | (after, none) => ((after.render o).1, .ok (after.render o).2) := rfl

/-! ## Steps -/

/-- Letting the machine take steps keeps what a step keeps, if a recorded fault does not matter. -/
theorem runSteps_keeps {P : Machine → Prop} (hstep : ∀ m now, P m → P (m.step now).machine)
    (hfault : ∀ m fault, P m → P (m.recordFault fault)) (steps : Int)
    (h : P w.bench.machine) : P (w.runSteps time o steps).1.bench.machine :=
  Inspector.runSteps_keeps hstep hfault time.ask _ w.inspector h

/-- Steps move no key. -/
theorem runSteps_down (steps : Int) :
    (w.runSteps time o steps).1.keypad.down = w.keypad.down :=
  w.runSteps_keeps time o (P := fun m => m.board.keypad.down = w.keypad.down)
    (fun m now h => (m.step_down now).trans h) (fun _ _ h => h) steps rfl

theorem runSteps_untouched (steps : Int) :
    (w.runSteps time o steps).1.paused = w.paused ∧
      (w.runSteps time o steps).1.budget = w.budget ∧
      (w.runSteps time o steps).1.running = w.running := ⟨rfl, rfl, rfl⟩

/-- Showing a frame changes the inspector at most. -/
theorem render_untouched :
    (w.render o).1.bench = w.bench ∧ (w.render o).1.budget = w.budget ∧
      (w.render o).1.paused = w.paused := by
  unfold render
  split <;> exact ⟨rfl, rfl, rfl⟩

/-! ## The ends of an event -/

/-- The step key in a pause: the machine may take a step, and no key moves. -/
theorem handle_step {event : HostEvent} (h : event.Steps w.paused) :
    (w.handle time o event).1.keypad.down = w.keypad.down ∧
      (w.handle time o event).1.budget = w.budget ∧
      (w.handle time o event).1.paused = w.paused := by
  obtain ⟨rfl, hpaused⟩ := h
  have hdown := w.runSteps_down time o 1
  have hhandle : w.handle time o (.keyDown stepCode) = w.pausedKey time o stepCode := by
    rw [handle, if_neg (by decide), if_pos hpaused]
  rw [hhandle, pausedKey, if_neg (by decide), if_neg (by decide), if_pos rfl]
  obtain ⟨hkept, hbudget, _⟩ := w.runSteps_untouched time o 1
  cases hrun : w.runSteps time o 1 with
  | mk after trouble =>
      rw [hrun] at hdown hkept hbudget
      cases trouble with
      | none => exact ⟨hdown, hbudget, hkept⟩
      | some trouble => exact ⟨hdown, hbudget, hkept⟩

/-- **Any other event passes something on to the keypad or not, and nothing else happens to the
machine.** -/
theorem handle_quiet {event : HostEvent} (h : ¬ event.Steps w.paused) :
    (w.handle time o event).2 = none ∧
      (w.handle time o event).1.bench =
        { w.bench with
          machine := w.bench.machine.withKeypad
            ((event.forwarded o.keyMap w.paused).elim w.keypad w.keypad.handle) } ∧
      (w.handle time o event).1.budget = w.budget := by
  cases event with
  | quit | other => exact ⟨rfl, rfl, rfl⟩
  | keyUp code =>
      rw [handle, hostKey, HostEvent.forwarded]
      cases o.keyMap.key? code with
      | none => exact ⟨rfl, rfl, rfl⟩
      | some key =>
          rw [Option.map_some, Option.elim_some, Keypad.handle_release]
          exact ⟨rfl, rfl, rfl⟩
  | keyDown code =>
      rw [handle, HostEvent.forwarded]
      by_cases hescape : code = escapeCode
      · rw [if_pos hescape, if_pos (Or.inl hescape)]
        exact ⟨rfl, rfl, rfl⟩
      rw [if_neg hescape]
      cases hpaused : w.paused with
      | true =>
          -- a command of the pause, but not the one to step
          have hstep : code ≠ stepCode := by
            rintro rfl
            exact h ⟨rfl, hpaused⟩
          rw [if_pos rfl, if_pos (Or.inr rfl), pausedKey, if_neg hstep]
          split
          · exact ⟨rfl, rfl, rfl⟩
          · split <;> exact ⟨rfl, rfl, rfl⟩
      | false =>
          rw [if_neg (by simp), if_neg (by simp [hescape]), hostKey]
          cases o.keyMap.key? code with
          | none => exact ⟨rfl, rfl, rfl⟩
          | some key =>
              rw [Option.map_some, Option.elim_some, Keypad.handle_key]
              exact ⟨rfl, rfl, rfl⟩

/-- What is passed on is all that moves a key. -/
theorem handle_isDown (event : HostEvent) (key : Key) :
    (w.handle time o event).1.keypad.isDown key =
      ((event.forwarded o.keyMap w.paused).elim w.keypad w.keypad.handle).isDown key := by
  by_cases hsteps : event.Steps w.paused
  · have hnone : event.forwarded o.keyMap w.paused = none := by
      rw [hsteps.1, HostEvent.forwarded, if_pos (Or.inr hsteps.2)]
    rw [hnone, Option.elim_none, Keypad.isDown, (w.handle_step time o hsteps).1]
    rfl
  · rw [keypad, (w.handle_quiet time o hsteps).2.1]
    rfl

/-- **Whether a window is paused is told by the events.** -/
theorem handle_paused (event : HostEvent) :
    (w.handle time o event).1.paused = pausedAfter w.paused [event] := by
  cases event with
  | quit | other => rfl
  | keyUp code =>
      rw [handle, hostKey]
      split <;> rfl
  | keyDown code =>
      by_cases hsteps : (HostEvent.keyDown code).Steps w.paused
      · rw [(w.handle_step time o hsteps).2.2, hsteps.1, hsteps.2]
        rfl
      rw [handle, pausedAfter, List.foldl_cons, List.foldl_nil, Tally.hear]
      by_cases hescape : code = escapeCode
      · rw [if_pos hescape, if_pos hescape]
        rfl
      rw [if_neg hescape, if_neg hescape]
      cases hpaused : w.paused with
      | false =>
          rw [if_neg (by simp), if_neg (by simp), hostKey]
          split <;> exact hpaused
      | true =>
          have hstep : code ≠ stepCode := by
            rintro rfl
            exact hsteps ⟨rfl, hpaused⟩
          rw [if_pos rfl, if_pos rfl, pausedKey, Tally.hearPaused, if_neg hstep, if_neg hstep]
          split
          · exact hpaused
          · split
            · rfl
            · exact hpaused

end WindowState

end ChipEight
