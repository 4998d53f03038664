import ChipEight.Proofs.HostEvents

/-!
# A pause freezes the machine

In an iteration that ends paused the machine does nothing but let its timers tick, unless it was
made to step by the step key. Pauses may begin and end any number of times within the events of one
iteration, and the same host key is a command in one of them and a key of the keypad outside; so it
is not the pause at the beginning that matters but where the events leave the window, and that none
of them was the step key in a pause (`Rests`).

What such iterations do to the machine is said at once for any number of them (`Machine.idle`): the
keys that were passed on have moved and the timers have ticked, once for each iteration. The budget
is not drawn upon, so the first iteration after the pause gets the steps that it would have got
without one: those that were not taken in the pause are not made up for.
-/

namespace ChipEight

variable {σ : Type}

/-! ## Events that let the machine rest -/

/-- None of the events has the machine take a step, and they leave the window paused. -/
def Rests (paused : Bool) : List HostEvent → Prop
  | [] => paused = true
  | event :: rest => ¬ event.Steps paused ∧ Rests (pausedAfter paused [event]) rest

instance Rests.decidable : (paused : Bool) → (events : List HostEvent) →
    Decidable (Rests paused events)
  | paused, [] => inferInstanceAs (Decidable (paused = true))
  | paused, event :: rest =>
    have := Rests.decidable (pausedAfter paused [event]) rest
    inferInstanceAs (Decidable (¬ event.Steps paused ∧ _))

theorem Rests.leaves_paused {paused : Bool} {events : List HostEvent} (h : Rests paused events) :
    pausedAfter paused events = true := by
  induction events generalizing paused with
  | nil => exact h
  | cons event rest ih =>
      have hrest : pausedAfter (pausedAfter paused [event]) rest = true := ih h.2
      rw [← pausedAfter_append] at hrest
      exact hrest

theorem forwardedAll_append (map : KeyMap) (paused : Bool) (events later : List HostEvent) :
    forwardedAll map paused (events ++ later) =
      forwardedAll map paused events ++ forwardedAll map (pausedAfter paused events) later := by
  induction events generalizing paused with
  | nil => rfl
  | cons event rest ih =>
      have hpaused : pausedAfter (pausedAfter paused [event]) rest =
          pausedAfter paused (event :: rest) := (pausedAfter_append _ _ _).symm
      rw [List.cons_append, forwardedAll, forwardedAll, ih, hpaused, List.append_assoc]

/-! ## A machine at rest -/

/-- A machine that only had keys moved, and its two timers ticked at one moment after another. -/
def Machine.idle (m : Machine) (moves : List KeyEvent) (moments : List Seconds) : Machine :=
  { m with
    board := { m.board with
      keypad := moves.foldl Keypad.handle m.board.keypad
      delay := moments.foldl (fun timer now => (timer.tick now).2) m.board.delay
      sound := moments.foldl (fun timer now => (timer.tick now).2) m.board.sound } }

theorem Machine.idle_idle (m : Machine) (moves more : List KeyEvent)
    (moments later : List Seconds) :
    (m.idle moves moments).idle more later = m.idle (moves ++ more) (moments ++ later) := by
  simp only [idle, List.foldl_append]

theorem Machine.withKeypad_forwarded (m : Machine) (move : Option KeyEvent) :
    m.withKeypad (move.elim m.board.keypad m.board.keypad.handle) = m.idle move.toList [] := by
  cases move <;> rfl

/-- What the clock shows in a number of iterations, in each of which it is looked at once. -/
def WindowTime.looks (time : WindowTime σ) : Nat → σ → List Seconds
  | 0, _ => []
  | n + 1, clock =>
    let (now, clock) := time.look (time.passFrame clock)
    now :: time.looks n clock

/-- The clock after them. -/
def WindowTime.passed (time : WindowTime σ) : Nat → σ → σ
  | 0, clock => clock
  | n + 1, clock => time.passed n (time.look (time.passFrame clock)).2

namespace WindowState

/-- What iterations at rest, with the events of each, come to. -/
structure Frozen (time : WindowTime σ) (o : WindowOptions) (w : WindowState σ)
    (script : List (List HostEvent)) (w' : WindowState σ) : Prop where
  /-- Of the machine nothing has changed but the keys that were passed on and the timers, which
  ticked once in each iteration and both at what the clock showed then. Nothing is written down. -/
  bench : w'.bench =
    { w.bench with
      machine := w.bench.machine.idle (forwardedAll o.keyMap w.paused script.flatten)
        (time.looks script.length w.bench.clock)
      clock := time.passed script.length w.bench.clock }
  /-- Nothing was drawn from the budget. -/
  budget : w'.budget = w.budget
  /-- The events tell whether the window is paused. -/
  paused : w'.paused = pausedAfter w.paused script.flatten

variable {time : WindowTime σ} {o : WindowOptions} {w : WindowState σ}

/-! ## One iteration -/

/-- No event draws upon the budget, not even the step key. -/
theorem handle_budget (time : WindowTime σ) (o : WindowOptions) (w : WindowState σ)
    (event : HostEvent) : (w.handle time o event).1.budget = w.budget := by
  by_cases hsteps : event.Steps w.paused
  · exact (w.handle_step time o hsteps).2.1
  · exact (w.handle_quiet time o hsteps).2.2

theorem handleAll_budget (time : WindowTime σ) (o : WindowOptions) (w : WindowState σ)
    (events : List HostEvent) : (w.handleAll time o events).1.budget = w.budget := by
  induction events generalizing w with
  | nil => rfl
  | cons event rest ih =>
      have hevent := w.handle_budget time o event
      rw [handleAll]
      cases hhandle : w.handle time o event with
      | mk after trouble =>
          rw [hhandle] at hevent
          cases trouble with
          | some trouble => exact hevent
          | none => exact (ih after).trans hevent

/-- **Events at rest change the keypad by what they pass on, and nothing else of the machine.** -/
theorem handleAll_rests {events : List HostEvent} (h : Rests w.paused events) :
    ∃ heard, w.handleAll time o events = (heard, none) ∧ heard.paused = true ∧
      heard.bench =
        { w.bench with
          machine := w.bench.machine.idle (forwardedAll o.keyMap w.paused events) [] } := by
  induction events generalizing w with
  | nil => exact ⟨w, rfl, h, rfl⟩
  | cons event rest ih =>
      obtain ⟨hquiet, hrest⟩ := h
      obtain ⟨htrouble, hbench, _⟩ := w.handle_quiet time o hquiet
      have hpaused := w.handle_paused time o event
      cases hhandle : w.handle time o event with
      | mk after trouble =>
          rw [hhandle] at htrouble hbench hpaused
          obtain rfl : trouble = none := htrouble
          have hpaused : after.paused = pausedAfter w.paused [event] := hpaused
          have hbench : after.bench = { w.bench with
              machine := w.bench.machine.idle (event.forwarded o.keyMap w.paused).toList [] } := by
            rw [← Machine.withKeypad_forwarded]
            exact hbench
          rw [← hpaused] at hrest
          obtain ⟨heard, hall, hheard, hidle⟩ := ih hrest
          refine ⟨heard, ?_, hheard, ?_⟩
          · rw [handleAll, hhandle]
            exact hall
          · -- what the first event passed on comes before what the others did
            rw [hidle, hbench, hpaused]
            simp only [Machine.idle_idle, forwardedAll, List.append_nil]

/-- The window with both timers ticked, at one reading of the clock. -/
def ticked (time : WindowTime σ) (w : WindowState σ) : WindowState σ :=
  { w with
    bench := { w.bench with
      machine := w.bench.machine.idle [] [(time.look w.bench.clock).1]
      clock := (time.look w.bench.clock).2 } }

theorem advance_paused (h : w.paused = true) : w.advance time o = (w.ticked time, none) := by
  rw [advance, if_pos h]
  rfl

/-- **An iteration at rest goes by without trouble and leaves the machine frozen.** -/
theorem frame_rests {events : List HostEvent} (h : Rests w.paused events) :
    ∃ w' shown, w.frame time o events = (w', .ok shown) ∧ Frozen time o w [events] w' := by
  have hbegun : Rests (w.begun time).paused events := h
  obtain ⟨heard, hall, hpaused, hbench⟩ := handleAll_rests hbegun
  have hbudget : heard.budget = w.budget := by
    have hkept := (w.begun time).handleAll_budget time o events
    rw [hall] at hkept
    exact hkept
  have hframe : w.frame time o events =
      (((heard.ticked time).render o).1, .ok ((heard.ticked time).render o).2) := by
    rw [frame_eq, hall]
    simp only [advance_paused hpaused]
  obtain ⟨hshown, hshownBudget, hshownPaused⟩ := (heard.ticked time).render_untouched o
  refine ⟨_, _, hframe, ?_, hshownBudget.trans hbudget, ?_⟩
  · -- the timers tick after the events
    rw [hshown, ticked, hbench]
    simp only [Machine.idle_idle, List.flatten_singleton, List.append_nil, List.nil_append]
    rfl
  · rw [hshownPaused, List.flatten_singleton, h.leaves_paused]
    exact hpaused

/-! ## Any number of iterations -/

/-- Iterations at rest one after another, with the events of each. -/
inductive RestsThrough (time : WindowTime σ) (o : WindowOptions) :
    WindowState σ → List (List HostEvent) → WindowState σ → Prop
  | done (w : WindowState σ) : RestsThrough time o w [] w
  | frame {w w' w'' : WindowState σ} {events : List HostEvent} {shown : FrameShown}
      {rest : List (List HostEvent)} : Rests w.paused events →
      w.frame time o events = (w', .ok shown) → RestsThrough time o w' rest w'' →
      RestsThrough time o w (events :: rest) w''

theorem Frozen.refl (time : WindowTime σ) (o : WindowOptions) (w : WindowState σ) :
    Frozen time o w [] w := ⟨rfl, rfl, rfl⟩

/-- **What follows frozen iterations is frozen too.** -/
theorem Frozen.cons {events : List HostEvent} {rest : List (List HostEvent)}
    {w' w'' : WindowState σ} (h : Frozen time o w [events] w') (hrest : Frozen time o w' rest w'') :
    Frozen time o w (events :: rest) w'' := by
  -- what later events pass on depends on the pause that the first iteration left
  have hpaused : w'.paused = pausedAfter w.paused events := by
    rw [h.paused, List.flatten_singleton]
  have hbench := h.bench
  rw [List.flatten_singleton] at hbench
  refine ⟨?_, hrest.budget.trans h.budget, ?_⟩
  · rw [hrest.bench, hbench, hpaused, List.flatten_cons, forwardedAll_append]
    simp only [Machine.idle_idle]
    rfl
  · rw [hrest.paused, hpaused, List.flatten_cons, pausedAfter_append]

theorem RestsThrough.frozen {script : List (List HostEvent)} {w' : WindowState σ}
    (h : RestsThrough time o w script w') : Frozen time o w script w' := by
  induction h with
  | done w => exact Frozen.refl time o w
  | frame hrests hframe _ ih =>
      -- an iteration comes to one window only, so it is the one that is frozen
      obtain ⟨_, _, hframe', hfrozen⟩ := frame_rests hrests
      rw [hframe] at hframe'
      obtain ⟨rfl, _⟩ := Prod.mk.inj hframe'
      exact hfrozen.cons ih

theorem advance_unpaused {heard : WindowState σ} (h : heard.paused = false) :
    heard.advance time o =
      match heard.budget.next with
      | .error trouble => (heard, some trouble)
      | .ok (steps, budget) => { heard with budget }.runSteps time o steps := by
  unfold advance
  exact if_neg (by simp [h])

/-! ## The main statement -/

/--
**A pause freezes the machine.**

For every window and all events of an iteration that leave it paused and of which none was the step
key in a pause, the iteration goes by without trouble; the machine takes no step, its timers tick
once at one reading of the clock, keys move as the events passed on have it, and nothing else of the
machine changes, nor the budget. The same is so of any number of such iterations in turn. So
whatever the events of an iteration after them are, if they leave the window not paused then it is
allotted the steps that the budget had next before the pause: those that it would have had at once,
which is the case of no iterations at rest.
-/
theorem pause_freezes (time : WindowTime σ) (o : WindowOptions) (w : WindowState σ) :
    (∀ events, Rests w.paused events →
      ∃ w' shown, w.frame time o events = (w', .ok shown) ∧ Frozen time o w [events] w') ∧
    ∀ script w', RestsThrough time o w script w' →
      Frozen time o w script w' ∧
      ∀ events heard, (w'.begun time).handleAll time o events = (heard, none) →
        heard.paused = false →
        heard.advance time o =
          match w.budget.next with
          | .error trouble => (heard, some trouble)
          | .ok (steps, budget) => { heard with budget }.runSteps time o steps := by
  refine ⟨fun events => frame_rests, fun script w' h => ⟨h.frozen, ?_⟩⟩
  intro events heard hall hpaused
  have hbudget : heard.budget = w.budget := by
    have hkept := (w'.begun time).handleAll_budget time o events
    rw [hall] at hkept
    exact hkept.trans h.frozen.budget
  rw [advance_unpaused hpaused, hbudget]

/-- After two iterations with eight steps each a pause begins while Q is down; it is let go of, W
goes down, and in a third iteration the pause ends and begins anew, with the step key in between.
The iteration that ends the pause has the nine steps of a third one. -/
theorem pause_freezes_third_iteration :
    let ask := clockOf fun _ => 0.5
    let time : WindowTime Nat := { ask, look := ask, passFrame := id }
    let o : WindowOptions := { scale := 1, fps := 60, keyMap := KeyMap.vip }
    let b : Bench Nat := { machine := Machine.new (.ofSeed 7) 0.25, clock := 0 }
    let budget : FrameBudget := { rate := .whole 500, fps := .whole 60, frames := 2, issued := 16 }
    let w : WindowState Nat := { opening o b with budget }
    let script : List (List HostEvent) :=
      [[.keyDown 113, .keyDown escapeCode], [.keyUp 113, .keyDown 119],
        [.keyDown spaceCode, .keyDown stepCode, .keyDown 119, .keyDown escapeCode]]
    forwardedAll o.keyMap w.paused script.flatten = [.press 4, .release 4, .press 5] ∧
      ∃ w', Frozen time o w script w' ∧
        ∃ heard, (w'.begun time).handleAll time o [.keyDown spaceCode] = (heard, none) ∧
          heard.paused = false ∧
          heard.advance time o =
            ({ heard with budget := { budget with frames := 3, issued := 25 } } :
              WindowState Nat).runSteps time o 9 := by
  intro ask time o b budget w script
  obtain ⟨iteration, _⟩ := pause_freezes time o w
  obtain ⟨w₁, _, hframe₁, hfrozen₁⟩ := iteration [.keyDown 113, .keyDown escapeCode] (by decide)
  have hpaused₁ : w₁.paused = true := hfrozen₁.paused
  obtain ⟨w₂, _, hframe₂, hfrozen₂⟩ := (pause_freezes time o w₁).1
    [.keyUp 113, .keyDown 119] (by rw [hpaused₁]; decide)
  have hpaused₂ : w₂.paused = true := by
    rw [hfrozen₂.paused, hpaused₁]
    rfl
  obtain ⟨w₃, _, hframe₃, hfrozen₃⟩ := (pause_freezes time o w₂).1
    [.keyDown spaceCode, .keyDown stepCode, .keyDown 119, .keyDown escapeCode]
    (by rw [hpaused₂]; decide)
  have hpaused₃ : w₃.paused = true := by
    rw [hfrozen₃.paused, hpaused₂]
    rfl
  have hrests : RestsThrough time o w script w₃ :=
    .frame (by decide) hframe₁ (.frame (by rw [hpaused₁]; decide) hframe₂
      (.frame (by rw [hpaused₂]; decide) hframe₃ (.done w₃)))
  obtain ⟨hfrozen, hallotted⟩ := (pause_freezes time o w).2 script w₃ hrests
  have hresumed : (w₃.begun time).handleAll time o [.keyDown spaceCode] =
      ({ w₃.begun time with
          paused := false, inspector := w₃.inspector.setStatus "Resumed" }, none) := by
    have hbegun : (w₃.begun time).paused = true := hpaused₃
    rw [handleAll, handle, if_neg (by decide), if_pos hbegun]
    rfl
  have hnext : w.budget.next = .ok (9, { budget with frames := 3, issued := 25 }) :=
    FrameBudget.next_whole (by decide) 2 16
  refine ⟨by decide, w₃, hfrozen, _, hresumed, rfl, ?_⟩
  rw [hallotted _ _ hresumed rfl, hnext]

end WindowState

end ChipEight
