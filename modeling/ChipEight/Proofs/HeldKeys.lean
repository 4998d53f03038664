import ChipEight.Proofs.HostEvents
import Mathlib.Data.List.Induction

/-!
# No key sticks

While a window is paused keys that go down are commands and do not reach the keypad, and a pause may
begin or end between a key's going down and its coming up. A key of the keypad would stick if it
were down with no key of the host to let go of.

What rules this out is that keys coming up are always passed on. So a key of the keypad is down
exactly if the host key that stands for it went down outside a pause and has not come up since
(`Follows`); and that this is one host key and no other is a property of the two layouts. The
invariant is about the order of events alone, so each event is one case and a list of events needs
no more than to be split at its last.
-/

namespace ChipEight

variable {σ : Type}

/-! ## The layouts -/

namespace KeyMap

/-- Different host keys stand for different keys, and the one that pauses stands for none. -/
structure Distinct (map : KeyMap) : Prop where
  oneToOne : ∀ code code' key, map.key? code = some key → map.key? code' = some key → code = code'
  escape : map.key? escapeCode = none

theorem mem_of_key? {map : KeyMap} {code : Int} {key : Key} (h : map.key? code = some key) :
    ∃ c, (c, key) ∈ map ∧ code = (c.toNat : Int) := by
  obtain ⟨⟨c, key'⟩, hfind, rfl⟩ := Option.map_eq_some_iff.mp h
  have hcode := List.find?_some hfind
  have hcode : (c.toNat : Int) = code := of_decide_eq_true hcode
  exact ⟨c, List.mem_of_find?_eq_some hfind, hcode.symm⟩

/-- Both layouts are of this kind. -/
theorem choices_distinct {map : KeyMap} (h : map ∈ choices.map Prod.snd) : map.Distinct := by
  have hentries : ∀ map ∈ choices.map Prod.snd,
      (∀ entry ∈ map, ∀ entry' ∈ map, entry.2 = entry'.2 → entry.1 = entry'.1) ∧
        map.key? escapeCode = none := by
    decide +kernel
  obtain ⟨hone, hescape⟩ := hentries map h
  refine ⟨fun code code' key hcode hcode' => ?_, hescape⟩
  obtain ⟨c, hmem, rfl⟩ := mem_of_key? hcode
  obtain ⟨c', hmem', rfl⟩ := mem_of_key? hcode'
  have hsame : c = c' := hone _ hmem _ hmem' rfl
  rw [hsame]

end KeyMap

/-! ## Host keys -/

/-- A host key went down where it counted and has not come up since. -/
def DownSince (counts : List HostEvent → Prop) (code : Int) (seen : List HostEvent) : Prop :=
  ∃ before after, seen = before ++ .keyDown code :: after ∧ .keyUp code ∉ after ∧ counts before

/-- The event is about a host key. -/
def HostEvent.concerns (code : Int) : HostEvent → Bool
  | .keyDown code' | .keyUp code' => code' = code
  | .quit | .other => false

/-- The last event about a host key. -/
def lastOf (code : Int) (seen : List HostEvent) : Option HostEvent :=
  seen.reverse.find? (HostEvent.concerns code)

theorem not_downSince_nil (counts : List HostEvent → Prop) (code : Int) :
    ¬ DownSince counts code [] := by
  rintro ⟨before, after, hseen, _⟩
  exact absurd hseen (by simp)

/-- **A host key is down after an event if it goes down by it, or was and does not come up.** -/
theorem downSince_snoc (counts : List HostEvent → Prop) (code : Int) (seen : List HostEvent)
    (event : HostEvent) : DownSince counts code (seen ++ [event]) ↔
      (event = .keyDown code ∧ counts seen) ∨
        (event ≠ .keyUp code ∧ DownSince counts code seen) := by
  constructor
  · rintro ⟨before, after, hseen, hup, hcounts⟩
    rcases List.eq_nil_or_concat after with rfl | ⟨after', last, rfl⟩
    · obtain ⟨rfl, hevent⟩ := List.append_inj' hseen rfl
      exact Or.inl ⟨(List.cons.inj hevent).1, hcounts⟩
    · rw [List.concat_eq_append, ← List.cons_append, ← List.append_assoc] at hseen
      obtain ⟨rfl, hevent⟩ := List.append_inj' hseen rfl
      rw [(List.cons.inj hevent).1]
      rw [List.concat_eq_append, List.mem_append, not_or] at hup
      refine Or.inr ⟨fun h => hup.2 (List.mem_singleton.mpr h.symm), ?_⟩
      exact ⟨before, after', rfl, hup.1, hcounts⟩
  · rintro (⟨rfl, hcounts⟩ | ⟨hne, before, after, rfl, hup, hcounts⟩)
    · exact ⟨seen, [], rfl, List.not_mem_nil, hcounts⟩
    · refine ⟨before, after ++ [event], by rw [List.append_assoc]; rfl, ?_, hcounts⟩
      rw [List.mem_append, not_or]
      exact ⟨hup, fun h => hne (List.mem_singleton.mp h).symm⟩

theorem lastOf_snoc (code : Int) (seen : List HostEvent) (event : HostEvent) :
    lastOf code (seen ++ [event]) =
      if event.concerns code then some event else lastOf code seen := by
  rw [lastOf, List.reverse_append, List.reverse_singleton, List.singleton_append, List.find?_cons]
  split
  · rename_i h; rw [if_pos h]
  · rename_i h; rw [if_neg (by simp [h])]; rfl

/-- A host key that went down and has not come up since is one whose last event was to go down. -/
theorem downSince_iff_lastOf (code : Int) (seen : List HostEvent) :
    DownSince (fun _ => True) code seen ↔ lastOf code seen = some (.keyDown code) := by
  induction seen using List.reverseRecOn with
  | nil => exact iff_of_false (not_downSince_nil _ _) (by simp [lastOf])
  | append_singleton seen event ih =>
      rw [downSince_snoc, lastOf_snoc, ih]
      cases event with
      | keyDown other =>
          by_cases hcode : other = code
          · simp [HostEvent.concerns, hcode]
          · simp [HostEvent.concerns, hcode]
      | keyUp other =>
          by_cases hcode : other = code
          · simp [HostEvent.concerns, hcode]
          · simp [HostEvent.concerns, hcode]
      | quit | other => simp [HostEvent.concerns]

namespace WindowState

/-! ## The points that a window comes to -/

/-- What a window comes to from its first state, with the events that it has dealt with: the clock
moves on, an event is dealt with, the machine does its part in an iteration, a frame is shown. -/
inductive Moment (time : WindowTime σ) (o : WindowOptions) (first : WindowState σ) :
    List HostEvent → WindowState σ → Prop
  | opened : Moment time o first [] first
  | begun {seen w} : Moment time o first seen w → Moment time o first seen (w.begun time)
  | heard {seen w} (event : HostEvent) : Moment time o first seen w →
      Moment time o first (seen ++ [event]) (w.handle time o event).1
  | advanced {seen w} : Moment time o first seen w →
      Moment time o first seen (w.advance time o).1
  | shown {seen w} : Moment time o first seen w → Moment time o first seen (w.render o).1

section Moment

variable {time : WindowTime σ} {o : WindowOptions} {first w : WindowState σ}
variable {seen : List HostEvent}

/-- Events are dealt with in order, all of them unless there is trouble. -/
theorem Moment.handleAll (events : List HostEvent) (h : Moment time o first seen w) :
    ∃ heard, heard <+: events ∧
      Moment time o first (seen ++ heard) (w.handleAll time o events).1 ∧
      ((w.handleAll time o events).2 = none → heard = events) := by
  induction events generalizing seen w with
  | nil => exact ⟨[], List.nil_prefix, by rw [List.append_nil]; exact h, fun _ => rfl⟩
  | cons event rest ih =>
      have hevent := h.heard event
      rw [WindowState.handleAll]
      cases hhandle : w.handle time o event with
      | mk after trouble =>
          rw [hhandle] at hevent
          cases trouble with
          | some trouble =>
              have hprefix : [event] <+: event :: rest :=
                (List.prefix_cons_inj event).mpr List.nil_prefix
              exact ⟨[event], hprefix, hevent, fun h => absurd h (by simp)⟩
          | none =>
              obtain ⟨heard, hprefix, hmoment, hall⟩ := ih hevent
              refine ⟨event :: heard, (List.prefix_cons_inj event).mpr hprefix, ?_, ?_⟩
              · rw [List.append_assoc] at hmoment
                exact hmoment
              · exact fun hnone => congrArg _ (hall hnone)

/-- What an iteration leaves is such a point, and so is what it leaves if there is trouble in it. -/
theorem Moment.frame (events : List HostEvent) (h : Moment time o first seen w) :
    ∃ heard, heard <+: events ∧
      Moment time o first (seen ++ heard) (w.frame time o events).1 ∧
      ∀ shown, (w.frame time o events).2 = .ok shown → heard = events := by
  obtain ⟨heard, hprefix, hmoment, hall⟩ := h.begun.handleAll events
  rw [frame_eq]
  cases hhandle : (w.begun time).handleAll time o events with
  | mk after trouble =>
      rw [hhandle] at hmoment hall
      cases trouble with
      | some trouble => exact ⟨heard, hprefix, hmoment, fun _ h => absurd h (by simp)⟩
      | none =>
          have hadvanced := hmoment.advanced
          cases hadvance : after.advance time o with
          | mk advanced trouble =>
              rw [hadvance] at hadvanced
              cases trouble with
              | some trouble =>
                  simp only [hadvance]
                  exact ⟨heard, hprefix, hadvanced, fun _ h => absurd h (by simp)⟩
              | none =>
                  simp only [hadvance]
                  exact ⟨heard, hprefix, hadvanced.shown, fun _ _ => hall rfl⟩

/-- **The loop comes to such points**, with a beginning of its script as the events so far. -/
theorem Moment.loop (script : List (List HostEvent)) (h : Moment time o first seen w) :
    ∃ heard, heard <+: (script ++ [[HostEvent.quit]]).flatten ∧
      Moment time o first (seen ++ heard) (w.loop time o script).1 := by
  induction script generalizing seen w with
  | nil =>
      obtain ⟨heard, hprefix, hmoment, _⟩ := h.frame [.quit]
      refine ⟨heard, hprefix, ?_⟩
      rw [WindowState.loop]
      cases hframe : w.frame time o [.quit] with
      | mk after result =>
          rw [hframe] at hmoment
          cases result <;> exact hmoment
  | cons events rest ih =>
      -- the loop goes on only if the iteration dealt with all its events
      obtain ⟨heard, hprefix, hmoment, hall⟩ := h.frame events
      have hwhole : heard <+: (events :: rest ++ [[HostEvent.quit]]).flatten :=
        hprefix.trans (List.prefix_append _ _)
      rw [WindowState.loop]
      cases hframe : w.frame time o events with
      | mk after result =>
          rw [hframe] at hmoment hall
          cases result with
          | error trouble => exact ⟨heard, hwhole, hmoment⟩
          | ok shown =>
              cases hrunning : after.running with
              | false =>
                  simp only [hrunning]
                  exact ⟨heard, hwhole, hmoment⟩
              | true =>
                  obtain rfl := hall shown rfl
                  obtain ⟨later, hlater, hmoment'⟩ := ih hmoment
                  refine ⟨heard ++ later, List.prefix_append_right_inj heard |>.mpr hlater, ?_⟩
                  rw [List.append_assoc] at hmoment'
                  simp only [hrunning]
                  exact hmoment'

end Moment

/-! ## The keypad follows the host -/

/-- The keypad is where the events outside pauses and the keys that came up have it. -/
structure Follows (o : WindowOptions) (seen : List HostEvent) (w : WindowState σ) : Prop where
  /-- The events tell whether the window is paused. -/
  paused : w.paused = pausedAfter o.startPaused seen
  /-- A key is down if a host key that stands for it went down outside a pause and is down since. -/
  down : ∀ key, w.keypad.isDown key = true ↔ ∃ code, o.keyMap.key? code = some key ∧
    DownSince (fun before => pausedAfter o.startPaused before = false) code seen

section Follows

variable {o : WindowOptions} {seen : List HostEvent} {w : WindowState σ}

/-- What moves no key and does not begin or end a pause changes nothing of this. -/
theorem Follows.of_same {w' : WindowState σ} (h : Follows o seen w) (hpaused : w'.paused = w.paused)
    (hdown : w'.keypad.down = w.keypad.down) : Follows o seen w' where
  paused := hpaused.trans h.paused
  down key := by
    rw [Keypad.isDown, hdown]
    exact h.down key

/-- **An event keeps the keypad with the host.** -/
theorem Follows.heard (hmap : o.keyMap.Distinct) (h : Follows o seen w) (time : WindowTime σ)
    (event : HostEvent) : Follows o (seen ++ [event]) (w.handle time o event).1 where
  paused := by rw [handle_paused, h.paused, pausedAfter_append]
  down key := by
    simp only [handle_isDown, downSince_snoc]
    rcases HostEvent.forwarded_cases hmap.escape w.paused event with ⟨hnone, hother⟩ |
        ⟨code', key', rfl, hpaused, hkey', hpress⟩ | ⟨code', key', rfl, hkey', hrelease⟩
    · -- the event is about no host key that matters
      rw [hnone, Option.elim_none, h.down]
      refine exists_congr fun code => and_congr_right fun hcode => ?_
      obtain ⟨hpressed, hreleased⟩ := hother code key hcode
      rw [h.paused] at hpressed
      simp only [hpressed, hreleased, false_or, ne_eq, not_false_eq_true, true_and]
    · rw [hpress, Option.elim_some, Keypad.handle_key, Keypad.isDown_press]
      by_cases hkey : key' = key
      · subst hkey
        rw [if_pos rfl]
        exact iff_of_true rfl ⟨code', hkey', Or.inl ⟨rfl, h.paused ▸ hpaused⟩⟩
      · rw [if_neg hkey, h.down]
        refine exists_congr fun code => and_congr_right fun hcode => ?_
        have hne : HostEvent.keyDown code' ≠ .keyDown code := by
          rintro ⟨⟩
          exact hkey (Option.some.inj (hkey'.symm.trans hcode))
        simp only [hne, false_and, false_or, ne_eq, reduceCtorEq, not_false_eq_true, true_and]
    · rw [hrelease, Option.elim_some, Keypad.handle_release, Keypad.isDown_release]
      by_cases hkey : key' = key
      · -- no other host key stands for it, so nothing holds it down any more
        subst hkey
        rw [if_pos rfl]
        refine iff_of_false Bool.false_ne_true ?_
        rintro ⟨code, hcode, ⟨hpressed, _⟩ | ⟨hreleased, _⟩⟩
        · exact absurd hpressed (by simp)
        · exact hreleased (congrArg _ (hmap.oneToOne _ _ _ hkey' hcode))
      · rw [if_neg hkey, h.down]
        refine exists_congr fun code => and_congr_right fun hcode => ?_
        have hne : HostEvent.keyUp code' ≠ .keyUp code := by
          rintro ⟨⟩
          exact hkey (Option.some.inj (hkey'.symm.trans hcode))
        simp only [hne, reduceCtorEq, false_and, false_or, ne_eq, not_false_eq_true, true_and]

/-- The machine's part in an iteration moves no key. -/
theorem advance_untouched (time : WindowTime σ) (o : WindowOptions) (w : WindowState σ) :
    (w.advance time o).1.paused = w.paused ∧
      (w.advance time o).1.keypad.down = w.keypad.down := by
  unfold advance
  split
  · exact ⟨rfl, rfl⟩
  · cases w.budget.next with
    | error trouble => exact ⟨rfl, rfl⟩
    | ok allotted => exact ⟨rfl, runSteps_down time o { w with budget := allotted.2 } allotted.1⟩

/-- **At every point the keypad follows the host**, if it does at first. -/
theorem Moment.follows {time : WindowTime σ} {first : WindowState σ} (hmap : o.keyMap.Distinct)
    (hfirst : Follows o [] first) (h : Moment time o first seen w) : Follows o seen w := by
  induction h with
  | opened => exact hfirst
  | begun _ ih => exact ih.of_same rfl rfl
  | heard event _ ih => exact ih.heard hmap time event
  | @advanced _ w _ ih =>
      obtain ⟨hpaused, hdown⟩ := advance_untouched time o w
      exact ih.of_same hpaused hdown
  | @shown _ w _ ih =>
      obtain ⟨hbench, _, hpaused⟩ := w.render_untouched o
      exact ih.of_same hpaused (congrArg (·.machine.board.keypad.down) hbench)

/-- A window is opened on a keypad with no key down. -/
theorem opening_follows (o : WindowOptions) {b : Bench σ}
    (hup : ∀ key, b.machine.board.keypad.isDown key = false) : Follows o [] (opening o b) := by
  have hnone : ∀ key, (opening o b).keypad.isDown key = false := by
    intro key
    rw [← hup key]
    unfold opening
    split <;> rfl
  refine ⟨?_, fun key => iff_of_false (by simp [hnone key]) ?_⟩
  · unfold opening
    split <;> rfl
  · rintro ⟨code, _, hdown⟩
    exact not_downSince_nil _ _ hdown

/-! ## The main statement -/

/-- What a player relies on: no key of the keypad sticks, and pauses apart it does as the host. -/
structure NoneSticks (o : WindowOptions) (seen : List HostEvent) (w : WindowState σ) : Prop where
  /-- The events tell whether the window is paused. -/
  paused : w.paused = pausedAfter o.startPaused seen
  /-- A key that is down has a host key that went down and has not come up since. -/
  caused : ∀ key, w.keypad.isDown key = true → ∃ code, o.keyMap.key? code = some key ∧
    ∃ before after, seen = before ++ .keyDown code :: after ∧ .keyUp code ∉ after
  /-- A key whose host key never went down in a pause is down exactly if that was the last event
  about the host key. -/
  exact : ∀ code key, o.keyMap.key? code = some key →
    (∀ before after, seen = before ++ .keyDown code :: after →
      pausedAfter o.startPaused before = false) →
    (w.keypad.isDown key = true ↔ lastOf code seen = some (.keyDown code))

theorem Follows.noneSticks (hmap : o.keyMap.Distinct) (h : Follows o seen w) :
    NoneSticks o seen w where
  paused := h.paused
  caused key hkey := by
    obtain ⟨code, hcode, before, after, hseen, hup, _⟩ := (h.down key).mp hkey
    exact ⟨code, hcode, before, after, hseen, hup⟩
  exact code key hcode hunpaused := by
    rw [h.down, ← downSince_iff_lastOf]
    constructor
    · rintro ⟨code', hcode', before, after, hseen, hup, _⟩
      obtain rfl := hmap.oneToOne _ _ _ hcode hcode'
      exact ⟨before, after, hseen, hup, trivial⟩
    · rintro ⟨before, after, hseen, hup, _⟩
      exact ⟨code, hcode, before, after, hseen, hup, hunpaused before after hseen⟩

/--
**No key sticks in a window.**

A window is opened on a keypad with no key down, with one of the two layouts. Whatever events come
in, and wherever pauses begin and end among them, at every point that the window comes to a key of
the keypad is down only if a host key that stands for it went down and has not come up since; and a
key whose host key never went down in a pause is down exactly if its last event was to go down. The
loop comes to such points, whatever its script and also if there is trouble in it.
-/
theorem no_key_sticks (time : WindowTime σ) (o : WindowOptions) (b : Bench σ)
    (hmap : o.keyMap ∈ KeyMap.choices.map Prod.snd)
    (hup : ∀ key, b.machine.board.keypad.isDown key = false) :
    (∀ seen w, Moment time o (opening o b) seen w → NoneSticks o seen w) ∧
    ∀ script, ∃ heard, heard <+: (script ++ [[HostEvent.quit]]).flatten ∧
      Moment time o (opening o b) heard ((opening o b).loop time o script).1 := by
  have hdistinct := KeyMap.choices_distinct hmap
  refine ⟨fun seen w h => ?_, fun script => ?_⟩
  · exact (h.follows hdistinct (opening_follows o hup)).noneSticks hdistinct
  · exact Moment.opened.loop script

/-- Q goes down and is let go of in a pause, W goes down in the pause, and A after it: the key that
A stands for is down, and no other. -/
theorem no_key_sticks_let_go_in_pause :
    let ask := clockOf fun _ => 0.5
    let time : WindowTime Nat := { ask, look := ask, passFrame := id }
    let o : WindowOptions := { scale := 1, fps := 60, keyMap := KeyMap.vip }
    let b : Bench Nat := { machine := Machine.new (.ofSeed 7) 0.25, clock := 0 }
    let seen : List HostEvent :=
      [.keyDown 113, .keyDown escapeCode, .keyDown 119, .keyUp 113, .keyDown escapeCode,
        .keyDown 97]
    let w := ((opening o b).handleAll time o seen).1
    KeyMap.vip ∈ KeyMap.choices.map Prod.snd ∧
      (∀ key, b.machine.board.keypad.isDown key = false) ∧
      NoneSticks o seen w ∧ w.keypad.pressedKeys = [7] := by
  intro ask time o b seen w
  have hmap : KeyMap.vip ∈ KeyMap.choices.map Prod.snd := by simp [KeyMap.choices]
  have hup : ∀ key, b.machine.board.keypad.isDown key = false := by decide
  have hopened : Moment time o (opening o b) [] (opening o b) := Moment.opened
  obtain ⟨heard, _, hmoment, hall⟩ := hopened.handleAll seen
  obtain rfl := hall rfl
  exact ⟨hmap, hup, (no_key_sticks time o b hmap hup).1 _ _ hmoment, by decide +kernel⟩

end Follows

end WindowState

end ChipEight
