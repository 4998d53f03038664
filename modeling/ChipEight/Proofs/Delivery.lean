import ChipEight.Proofs.Operation
import ChipEight.Proofs.Step

/-!
# No frame is lost and none is made up

A listener sees the screen only through the frames that it is handed, so it relies on two things:
what it was handed last is what the screen shows, and it is handed nothing without reason. The
screen is changed in two places and its news is taken in a third, also when nobody listens and also
by steps of the processor alone, which hand nothing out. What ties these together is one invariant,
`Machine.Showing`: there is news, or the last frame is the screen as it is. Whatever changes the
pixels says that there is news, so every operation keeps it.

The step of the machine is the only operation that hands out frames. Exactly if there was news or
the instruction clears or draws, each listener gets the screen as it is after the step.
-/

namespace ChipEight

open Number

/-- The instruction clears the screen or draws on it. -/
def Instruction.Redraws (i : Instruction) : Prop :=
  i = .clearScreen ∨ ∃ x y height, i = .draw x y height

/-! ## News of the screen -/

namespace Board

variable {b : Board}

/-- A sprite that is drawn without a fault was read from memory. -/
theorem spriteRows_of_room {height : Nibble} (h : b.blockFault height.val = none) :
    ∃ rows, b.spriteRows height = some rows := by
  unfold blockFault at h
  unfold spriteRows
  rcases b.memory.readBlock_cases b.processor.index height.val with ⟨_, bytes, hread⟩ | ⟨hout, _⟩
  · rw [hread]
    exact ⟨_, rfl⟩
  · rw [if_neg hout] at h
    exact absurd h (by simp)

/-- **An instruction that changes the screen says that there is news.** -/
theorem screenAfter_cases (b : Board) (i : Instruction) :
    b.screenAfter i = b.screen ∨ (b.screenAfter i).dirty = true := by
  cases i with
  | clearScreen => exact Or.inr rfl
  | draw x y height =>
      simp only [screenAfter]
      cases b.spriteRows height with
      | some rows => exact Or.inr rfl
      | none => exact Or.inl rfl
  | _ => exact Or.inl rfl

/-- After an instruction that is carried out there is news if there was or if it redraws. -/
theorem screenAfter_dirty {pc : Int} {i : Instruction} (h : b.refusal pc i = none) :
    (b.screenAfter i).dirty = true ↔ b.screen.dirty = true ∨ i.Redraws := by
  by_cases hredraws : i.Redraws
  · refine ⟨fun _ => Or.inr hredraws, fun _ => ?_⟩
    rcases hredraws with rfl | ⟨x, y, height, rfl⟩
    · rfl
    · obtain ⟨rows, hrows⟩ := spriteRows_of_room h
      simp only [screenAfter, hrows]
      rfl
  · have hsame : b.screenAfter i = b.screen := by
      cases i with
      | clearScreen => exact absurd (Or.inl rfl) hredraws
      | draw x y height => exact absurd (Or.inr ⟨x, y, height, rfl⟩) hredraws
      | _ => rfl
    rw [hsame]
    exact ⟨Or.inl, fun h => h.resolve_right hredraws⟩

/-- A step of the processor changes nothing of the screen without news of it. -/
theorem step_screen (b : Board) (now : Seconds) :
    (b.step now).board.screen = b.screen ∨ (b.step now).board.screen.dirty = true := by
  rcases b.step_cases now with ⟨_, hs⟩ | ⟨_, _, _, hs⟩ | ⟨_, word, _, hs⟩
  · rw [hs]; exact Or.inl rfl
  · rw [hs]; exact Or.inl rfl
  · rw [hs]; exact b.advanced.screenAfter_cases _

/-- The instruction that a step fetches redraws. A halted processor fetches none. -/
def StepRedraws (b : Board) (now : Seconds) : Prop :=
  ∃ f, (b.step now).fetched = some f ∧ f.instruction.Redraws

/-- **When there is news after a step of the processor.** -/
theorem step_dirty {now : Seconds} (hok : (b.step now).fault = none) :
    (b.step now).board.screen.dirty = true ↔ b.screen.dirty = true ∨ b.StepRedraws now := by
  unfold StepRedraws
  rcases b.step_cases now with ⟨_, hs⟩ | ⟨_, fault, _, hs⟩ | ⟨_, word, _, hs⟩
  · rw [hs]
    simp
  · rw [hs] at hok; exact absurd hok (by simp)
  · rw [hs] at hok ⊢
    have hdirty := screenAfter_dirty (b := b.advanced)
      ((b.advanced_refusal b.processor.pc (Instruction.decode word)).trans hok)
    refine hdirty.trans (or_congr Iff.rfl ⟨fun h => ⟨_, rfl, h⟩, ?_⟩)
    rintro ⟨f, hf, hredraws⟩
    rw [← Option.some.inj hf] at hredraws
    exact hredraws

end Board

/-! ## What is handed out -/

/-- Who is handed a frame among others has it as the last one. -/
theorem lookup_frame {listener : Int} {listeners : List Int} (h : listener ∈ listeners)
    (frame : PixelGrid) : (listeners.map fun l => (l, frame)).lookup listener = some frame := by
  induction listeners with
  | nil => exact absurd h (by simp)
  | cons first rest ih =>
      rw [List.map_cons, List.lookup_cons]
      by_cases hfirst : listener = first
      · rw [hfirst, beq_self_eq_true]
      · rw [beq_eq_false_iff_ne.mpr hfirst]
        exact ih ((List.mem_cons.mp h).resolve_left hfirst)

namespace Machine

variable {m : Machine} {now : Seconds}

/-- The last frame that a listener was handed. -/
def lastFrame (m : Machine) (listener : Int) : Option PixelGrid := m.delivered.lookup listener

/-- One frame for each listener, in order, with the screen as it is. -/
def frameForEach (m : Machine) : List (Int × PixelGrid) :=
  m.listeners.map fun listener => (listener, m.board.screen.grid)

/-! ### Handing the screen out takes the news and leaves the pixels -/

theorem publish_clean (m : Machine) : m.publish.board.screen.dirty = false := by
  rw [publish_eq]

theorem publish_grid (m : Machine) : m.publish.board.screen.grid = m.board.screen.grid := by
  rw [publish_eq]

theorem publish_delivered (h : m.board.screen.dirty = true) :
    m.publish.delivered = m.publish.frameForEach.reverse ++ m.delivered := by
  rw [publish_eq, frames, if_pos h]
  rfl

theorem publish_silent (h : ¬ m.board.screen.dirty = true) : m.publish.delivered = m.delivered := by
  rw [publish_eq, frames, if_neg h]
  rfl

/-! ### Steps -/

/-- There is a reason to hand the screen out in the step at a moment. -/
def NewsAt (m : Machine) (now : Seconds) : Prop :=
  m.board.screen.dirty = true ∨ m.board.StepRedraws now

/-- A step that is not a success hands nothing out. -/
theorem step_failed (h : m.halted = true ∨ (m.step now).fault ≠ none) :
    (m.step now).machine.delivered = m.delivered := by
  rcases m.step_cases now with ⟨_, hs⟩ | ⟨_, _, _, _, hs⟩ | ⟨hrun, _, hfault, _⟩
  · rw [hs]
  · rw [hs]
  · rcases h with hhalted | hfailed
    · rw [hrun] at hhalted; exact absurd hhalted (by simp)
    · exact absurd hfault hfailed

/-- **What a successful step hands out**: the screen as it is after the step to each listener, or
nothing if there is no reason to. Either way there is no news left. -/
theorem step_delivered (hrun : m.halted = false) (hok : (m.step now).fault = none) :
    (m.step now).machine.board.screen.dirty = false ∧
      (m.step now).machine.board.screen.grid = (m.board.step now).board.screen.grid ∧
      (m.NewsAt now → (m.step now).machine.delivered =
        (m.step now).machine.frameForEach.reverse ++ m.delivered) ∧
      (¬ m.NewsAt now → (m.step now).machine.delivered = m.delivered ∧
        (m.step now).machine.board.screen.grid = m.board.screen.grid) := by
  have hboard : (m.board.step now).fault = none := (step_fault hrun now).symm.trans hok
  have hnews : (m.board.step now).board.screen.dirty = true ↔ m.NewsAt now :=
    Board.step_dirty hboard
  have hscreen := m.board.step_screen now
  -- ticking the timers and halting leave the screen and the listeners alone
  rw [(m.step_eq now).1, hrun, hboard]
  refine ⟨publish_clean _, publish_grid _, fun h => ?_, fun h => ⟨?_, ?_⟩⟩
  · exact publish_delivered (hnews.mpr h)
  · exact publish_silent (mt hnews.mp h)
  · have hgrid : (m.board.step now).board.screen.grid = m.board.screen.grid :=
      congrArg Screen.grid (hscreen.resolve_right (mt hnews.mp h))
    exact (publish_grid _).trans hgrid

/-! ## What every operation keeps -/

/-- The listener is registered, and unless there is news it was handed the screen as it is. -/
structure Showing (m : Machine) (listener : Int) : Prop where
  registered : listener ∈ m.listeners
  current : m.board.screen.dirty = true ∨ m.lastFrame listener = some m.board.screen.grid

variable {listener : Int}

/-- What leaves the listeners, the frames and the screen alone, but for news of it, keeps that. -/
theorem Showing.of_same {m' : Machine} (h : m.Showing listener)
    (hlisteners : m'.listeners = m.listeners) (hdelivered : m'.delivered = m.delivered)
    (hscreen : m'.board.screen = m.board.screen ∨ m'.board.screen.dirty = true) :
    m'.Showing listener := by
  refine ⟨hlisteners ▸ h.registered, ?_⟩
  rcases hscreen with hsame | hdirty
  · rw [lastFrame, hdelivered, hsame]
    exact h.current
  · exact Or.inl hdirty

/-- After a successful step the listener has been handed the screen as it is. -/
theorem Showing.step_lastFrame (h : m.Showing listener) (hrun : m.halted = false)
    (hok : (m.step now).fault = none) :
    (m.step now).machine.lastFrame listener = some (m.step now).machine.board.screen.grid := by
  obtain ⟨_, _, hnews, hquiet⟩ := step_delivered hrun hok
  have hregistered : listener ∈ (m.step now).machine.listeners := by
    rw [(m.step_untouched now).2.2.2]
    exact h.registered
  by_cases hreason : m.NewsAt now
  · have hframe := lookup_frame (List.mem_reverse.mpr hregistered)
      (m.step now).machine.board.screen.grid
    rw [lastFrame, hnews hreason, frameForEach, ← List.map_reverse, List.lookup_append, hframe]
    rfl
  · -- nothing was handed out, but nothing changed either
    obtain ⟨hdelivered, hgrid⟩ := hquiet hreason
    rw [lastFrame, hdelivered, hgrid]
    exact h.current.resolve_left fun hdirty => hreason (Or.inl hdirty)

theorem Showing.step (h : m.Showing listener) (now : Seconds) :
    (m.step now).machine.Showing listener := by
  have hlisteners := (m.step_untouched now).2.2.2
  rcases m.step_cases now with ⟨_, hs⟩ | ⟨_, fault, _, _, hs⟩ | ⟨hrun, _, hok, _⟩
  · rw [hs]; exact h
  · rw [hs]; exact h.of_same rfl rfl (m.board.step_screen now)
  · exact ⟨hlisteners ▸ h.registered, Or.inr (h.step_lastFrame hrun hok)⟩

/-- **Every operation keeps what a listener sees**, except for removing the listener. -/
theorem Showing.perform (h : m.Showing listener) {operation : Operation}
    (hkept : operation ≠ .unlisten listener) : (m.perform operation).Showing listener := by
  cases operation with
  | step now => exact h.step now
  | stepProcessor now => exact h.of_same rfl rfl (m.board.step_screen now)
  | run options readings schedule turns =>
      exact Bench.run_keeps (P := fun m => m.Showing listener) (fun _ now h => h.step now)
        (fun _ _ h => h.of_same rfl rfl (Or.inl rfl)) _ _ _ h
  | key event => exact h.of_same rfl rfl (Or.inl rfl)
  | clearKeypad => exact h.of_same rfl rfl (Or.inl rfl)
  | delay now event => exact h.of_same rfl rfl (Or.inl rfl)
  | sound now event => exact h.of_same rfl rfl (Or.inl rfl)
  | tickTimers now => exact h.of_same rfl rfl (Or.inl rfl)
  | load program =>
      rcases m.perform_load_cases program with ⟨_, memory, _, hm⟩ | ⟨_, _, hm⟩
      · rw [hm]; exact h.of_same rfl rfl (Or.inl rfl)
      · rw [hm]; exact h
  | resetProcessor => exact h.of_same rfl rfl (Or.inl rfl)
  | reset now => exact h.of_same rfl rfl (Or.inr rfl)
  | listen other => exact ⟨List.mem_append_left [other] h.registered, h.current⟩
  | unlisten other =>
      have hother : listener ≠ other := fun heq => hkept (congrArg _ heq.symm)
      simp only [Machine.perform, unlisten]
      by_cases hthere : m.listeners.contains other = true
      · rw [if_pos hthere]
        exact ⟨(List.mem_erase_of_ne hother).mpr h.registered, h.current⟩
      · rw [if_neg hthere]
        exact h

theorem Showing.performAll (operations : List Operation) (h : m.Showing listener)
    (hkept : ∀ operation ∈ operations, operation ≠ .unlisten listener) :
    (m.performAll operations).Showing listener := by
  induction operations generalizing m with
  | nil => exact h
  | cons operation rest ih =>
      have hfirst := h.perform (hkept operation List.mem_cons_self)
      exact ih hfirst fun o ho => hkept o (List.mem_cons_of_mem _ ho)

end Machine

/-- A step of the machine, or a run, which is so many. -/
def Operation.StepsMachine : Operation → Prop
  | .step _ | .run .. => True
  | _ => False

namespace Machine

variable {m : Machine}

/-- Other operations hand nothing out. -/
theorem perform_delivered {operation : Operation} (h : ¬ operation.StepsMachine) :
    (m.perform operation).delivered = m.delivered := by
  cases operation with
  | step now => exact absurd trivial h
  | run options readings schedule turns => exact absurd trivial h
  | load program =>
      rcases m.perform_load_cases program with ⟨_, memory, _, hm⟩ | ⟨_, _, hm⟩
      · rw [hm]
      · rw [hm]
  | unlisten listener =>
      obtain ⟨listeners, hm⟩ := m.perform_unlisten listener
      rw [hm]
  | _ => rfl

/-- What a listener can rely on from a machine on. -/
structure FramesFollow (m : Machine) (listener : Int) : Prop where
  /-- The frame it was handed last is the screen as it is, unless there is news. -/
  current : m.board.screen.dirty = true ∨ m.lastFrame listener = some m.board.screen.grid
  /-- After a successful step it has the screen as it is, and there is no news left. -/
  shown : ∀ now, m.halted = false → (m.step now).fault = none →
    (m.step now).machine.board.screen.dirty = false ∧
      (m.step now).machine.lastFrame listener = some (m.step now).machine.board.screen.grid
  /-- With a reason to, such a step hands one frame to each listener, the same to all. The listener
  is one of them. -/
  handed : ∀ now, m.halted = false → (m.step now).fault = none → m.NewsAt now →
    listener ∈ m.listeners ∧
      (m.step now).machine.delivered =
        (m.listeners.map fun l => (l, (m.step now).machine.board.screen.grid)).reverse ++
          m.delivered
  /-- Without one it hands out nothing. -/
  silent : ∀ now, m.halted = false → (m.step now).fault = none → ¬ m.NewsAt now →
    (m.step now).machine.delivered = m.delivered
  /-- A step that fails, or that finds the machine halted, hands out nothing. -/
  failed : ∀ now, m.halted = true ∨ (m.step now).fault ≠ none →
    (m.step now).machine.delivered = m.delivered
  /-- No other operation hands out anything. -/
  others : ∀ operation, ¬ operation.StepsMachine →
    (m.perform operation).delivered = m.delivered

theorem Showing.framesFollow {listener : Int} (h : m.Showing listener) :
    m.FramesFollow listener where
  current := h.current
  shown := fun _ hrun hok => ⟨(step_delivered hrun hok).1, h.step_lastFrame hrun hok⟩
  handed := by
    intro now hrun hok hreason
    obtain ⟨_, _, hnews, _⟩ := step_delivered hrun hok
    have hsame : (m.step now).machine.listeners = m.listeners := (m.step_untouched now).2.2.2
    refine ⟨h.registered, ?_⟩
    rw [hnews hreason, frameForEach, hsame]
  silent := fun _ hrun hok hreason => ((step_delivered hrun hok).2.2.2 hreason).1
  failed := fun _ => step_failed
  others := fun _ => perform_delivered

/--
**No frame is lost and none is made up.**

The listener is registered with a new machine, beside any others, and it is never removed; all else
may be done in any order, and steps may fail. Wherever that leads, frames follow the screen.
-/
theorem frames_follow_screen (random : RandomSource) (now : Seconds) (buzzer : Buzzer)
    (rate : Quantity) {listeners : List Int} {listener : Int} (hregistered : listener ∈ listeners)
    (operations : List Operation)
    (hkept : ∀ operation ∈ operations, operation ≠ .unlisten listener) :
    (({ Machine.new random now with buzzer, rate, listeners } : Machine).performAll
      operations).FramesFollow listener := by
  -- a new machine has news for everybody
  have hnew :
      ({ Machine.new random now with buzzer, rate, listeners } : Machine).Showing listener :=
    ⟨hregistered, Or.inl rfl⟩
  exact (hnew.performAll operations hkept).framesFollow

/-- Two listeners of a new machine and a third that comes and goes: the first step hands the screen
to the two, because a new screen is news. -/
theorem frames_follow_screen_first_step :
    let start : Machine :=
      { Machine.new (.ofSeed 7) 0.25 with buzzer := {}, rate := .whole 60, listeners := [1, 2] }
    let m := start.performAll
      [.load [0x12, 0x00], .listen 3, .key (.press 5), .unlisten 3, .sound 0.25 (.set 9)]
    let after := (m.step 0.5).machine
    after.delivered = [(2, after.board.screen.grid), (1, after.board.screen.grid)] ∧
      after.lastFrame 1 = some after.board.screen.grid ∧
      after.board.screen.dirty = false := by
  intro start m after
  obtain ⟨memory, hload, hm⟩ := start.perform_load [0x12, 0x00] (by decide)
  have hm' : m.AtWork memory 0x200 ∧ m.delivered = [] ∧ m.listeners = [1, 2] ∧
      m.board.screen.dirty = true := by
    simp only [m, performAll, List.foldl_cons, List.foldl_nil, hm]
    exact ⟨⟨rfl, rfl, rfl, rfl, rfl⟩, rfl, rfl, rfl⟩
  have hfollow : m.FramesFollow 1 :=
    frames_follow_screen (.ofSeed 7) 0.25 {} (.whole 60) (by decide) _ (by simp)
  clear_value m
  obtain ⟨hwork, hdelivered, hlisteners, hdirty⟩ := hm'
  have hjump : memory.fetch 0x200 = .ok 0x1200 :=
    Memory.fetch_word hload (k := 0) rfl rfl (by decide) rfl
  have hok : (m.step 0.5).fault = none := (hwork.jump hjump rfl 0.5).1
  obtain ⟨hclean, hlast⟩ := hfollow.shown 0.5 hwork.running hok
  obtain ⟨_, hhanded⟩ := hfollow.handed 0.5 hwork.running hok (Or.inl hdirty)
  refine ⟨?_, hlast, hclean⟩
  rw [hhanded, hlisteners, hdelivered]
  rfl

end Machine

end ChipEight
