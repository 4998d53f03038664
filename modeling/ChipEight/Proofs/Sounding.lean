import ChipEight.Proofs.Faults

/-!
# The life of a buzzer

A buzzer is asked for tones, is silenced, and hears that its channel has come to the end of a tone.
The first request with sound switched on sets the mixer up, and that is the only moment at which
anything can fail: the mixer refuses to open, the tone cannot be calculated, or the volume is too
large for a double. Whatever it is, it ends in a buzzer with sound switched off. So there is no way
back to the set-up: either a tone is at hand from then on, or no request gets past the switch.

What an event tells the mixer is in the mixer's own list. What it asks is not, and a mixer that
refuses to open leaves no trace there either. Both are told by what would have happened otherwise: an
event asks the mixer to open if it makes a difference whether the mixer refuses (`AsksToOpen`), and it
has nothing to do with the mixer if any other mixer in its place is left as it is (`SparesMixer`).
-/

namespace ChipEight

/-- What happens to a buzzer. -/
inductive BuzzerEvent
  | emit
  | stop
  | finish
  deriving DecidableEq, Repr

namespace Buzzer

/-- The buzzer after an event. -/
def handle (b : Buzzer) : BuzzerEvent → Buzzer
  | .emit => b.emit.1
  | .stop => b.stop
  | .finish => b.finish

/-- The buzzer after events in order. -/
def after (b : Buzzer) (events : List BuzzerEvent) : Buzzer := events.foldl handle b

/-- Nothing has happened to the buzzer yet. Sound may be on or off, any tone may be wanted, and the
mixer may be open, sounding, or one that refuses. -/
structure New (b : Buzzer) : Prop where
  requests : b.requests = 0
  tone : b.tone = none
  calls : b.mixer.calls = []

/-- The buzzer with another mixer. -/
def withMixer (b : Buzzer) (mixer : Mixer) : Buzzer := { b with mixer }

/-- The buzzer with a mixer that would refuse to open for another reason, or for none. -/
def withRefusal (b : Buzzer) (refusal : Option String) : Buzzer :=
  b.withMixer { b.mixer with refusal }

/-- An event asks the mixer to open: it makes a difference whether the mixer refuses. -/
def AsksToOpen (b : Buzzer) (event : BuzzerEvent) : Prop :=
  ∃ refusal, (b.withRefusal refusal).handle event ≠ (b.handle event).withRefusal refusal

/-- An event has nothing to do with the mixer: any other one is left as it is, and the same comes of
the buzzer. -/
def SparesMixer (b : Buzzer) (event : BuzzerEvent) : Prop :=
  ∀ mixer, (b.withMixer mixer).handle event = (b.handle event).withMixer mixer

/-- What an event tells the mixer, the last call first. -/
def told (b : Buzzer) (event : BuzzerEvent) : List MixerCall :=
  let calls := (b.handle event).mixer.calls
  calls.take (calls.length - b.mixer.calls.length)

/-- An event starts the tone. -/
def Plays (b : Buzzer) (event : BuzzerEvent) : Prop :=
  ∃ samples, .play samples ∈ b.told event

variable {b : Buzzer}

/-! ## Setting the mixer up -/

/-- The calls hold that the wanted volume was set. -/
def VolumeSet (b : Buzzer) (calls : List MixerCall) : Prop :=
  ∃ level, b.volume.toFloat = .ok level ∧ .volume level ∈ calls

/-- There is no play among the calls. -/
def Silent (calls : List MixerCall) : Prop := ∀ samples, .play samples ∉ calls

/-- The mixer after calls that let the channel be. -/
structure Prepares (b : Buzzer) (mixer : Mixer) (calls : List MixerCall) : Prop where
  told : mixer.calls = calls ++ b.mixer.calls
  silent : Silent calls
  busy : mixer.busy = b.mixer.busy
  /-- Only a mixer that is not open is told to open. -/
  opens : ∀ rate, .opened rate ∈ calls → b.mixer.isOpen = false
  /-- Afterwards it is open, unless it refuses. -/
  isOpen : mixer.isOpen = (b.mixer.isOpen || b.mixer.refusal.isNone)

theorem Prepares.nothing (h : b.mixer.isOpen = (b.mixer.isOpen || b.mixer.refusal.isNone)) :
    b.Prepares b.mixer [] :=
  ⟨rfl, by simp [Silent], rfl, by simp, h⟩

/-- **Opening the mixer** fails if it is not open and refuses. -/
theorem openAt_cases (b : Buzzer) :
    (∃ why, b.mixer.openAt b.sampleRate = .error why ∧ b.Prepares b.mixer []) ∨
    ∃ mixer calls, b.mixer.openAt b.sampleRate = .ok mixer ∧ b.Prepares mixer calls := by
  cases hopen : b.mixer.isOpen with
  | true =>
      refine Or.inr ⟨b.mixer, [], if_pos hopen, .nothing ?_⟩
      rw [hopen, Bool.true_or]
  | false =>
      cases hrefusal : b.mixer.refusal with
      | some why =>
          refine Or.inl ⟨why, ?_, .nothing ?_⟩
          · simp only [Mixer.openAt, hopen, hrefusal, Bool.false_eq_true, if_false]
          · rw [hopen, hrefusal]
            rfl
      | none =>
          refine Or.inr ⟨{ b.mixer with isOpen := true }.tell (.opened b.sampleRate),
            [.opened b.sampleRate], ?_, rfl, by simp [Silent], rfl, fun _ _ => hopen, ?_⟩
          · simp only [Mixer.openAt, hopen, hrefusal, Bool.false_eq_true, if_false]
          · rw [hopen, hrefusal]
            rfl

/-- **On an open mixer** the tone and the volume are worked out, which may fail, and the volume is
set. -/
theorem setUp_of_open {mixer : Mixer} (h : b.mixer.openAt b.sampleRate = .ok mixer) :
    (∃ why, b.setUp = (mixer, .error why)) ∨
      ∃ level tone, b.volume.toFloat = .ok level ∧
        b.setUp = (mixer.tell (.volume level), .ok tone) := by
  cases hrender : b.render with
  | error trouble =>
      refine Or.inl ⟨trouble.message, ?_⟩
      simp only [setUp, h, hrender]
  | ok tone =>
      cases hvolume : b.volume.toFloat with
      | error trouble =>
          refine Or.inl ⟨trouble.message, ?_⟩
          simp only [setUp, h, hrender, hvolume]
      | ok level =>
          refine Or.inr ⟨level, tone, rfl, ?_⟩
          simp only [setUp, h, hrender, hvolume]

/-- The volume is one call more. -/
theorem Prepares.tellVolume {mixer : Mixer} {calls : List MixerCall} (h : b.Prepares mixer calls)
    (level : Float) : b.Prepares (mixer.tell (.volume level)) (.volume level :: calls) where
  told := congrArg (List.cons _) h.told
  silent := by
    intro samples hmem
    rcases List.mem_cons.mp hmem with heq | hmem
    · exact absurd heq (by simp)
    · exact h.silent samples hmem
  busy := h.busy
  opens := by
    intro rate hmem
    rcases List.mem_cons.mp hmem with heq | hmem
    · exact absurd heq (by simp)
    · exact h.opens rate hmem
  isOpen := h.isOpen

/-- **What a set-up tells the mixer**: nothing to play, and the volume if there is a tone then. -/
theorem setUp_prepares (b : Buzzer) :
    ∃ calls, b.Prepares b.setUp.1 calls ∧
      ∀ tone, b.setUp.2 = .ok tone → b.VolumeSet calls := by
  rcases b.openAt_cases with ⟨why, hopen, hprepares⟩ | ⟨mixer, calls, hopen, hprepares⟩
  · have hs : b.setUp = (b.mixer, .error why) := by
      simp only [setUp, hopen]
    rw [hs]
    exact ⟨[], hprepares, fun tone htone => absurd htone (by simp)⟩
  · rcases setUp_of_open hopen with ⟨why, hs⟩ | ⟨level, tone, hlevel, hs⟩
    · rw [hs]
      exact ⟨calls, hprepares, fun tone htone => absurd htone (by simp)⟩
    · rw [hs]
      exact ⟨_, hprepares.tellVolume level, fun _ _ => ⟨level, hlevel, List.mem_cons_self⟩⟩

/-! ## What a request comes to -/

/-- One request more. -/
def asked (b : Buzzer) : Buzzer := { b with requests := b.requests + 1 }

/-- A request in terms of its parts; the set-up does not look at the number of requests. -/
theorem emit_eq (b : Buzzer) :
    b.emit =
      if !b.enabled then (b.asked, none)
      else match b.tone with
        | some tone => (b.asked.sound tone, none)
        | none =>
          match b.setUp with
          | (mixer, .error why) => ({ b.asked with mixer, enabled := false }, some why)
          | (mixer, .ok tone) =>
            (({ b.asked with mixer, tone := some tone } : Buzzer).sound tone, none) := rfl

/-- **The ends of a request.** Sound is off; or the tone is at hand; or the set-up failed; or it
succeeded. -/
theorem emit_cases (b : Buzzer) :
    (b.enabled = false ∧ b.emit = (b.asked, none)) ∨
    (b.enabled = true ∧ ∃ tone, b.tone = some tone ∧ b.emit = (b.asked.sound tone, none)) ∨
    (b.enabled = true ∧ b.tone = none ∧ ∃ mixer why, b.setUp = (mixer, .error why) ∧
      b.emit = ({ b.asked with mixer, enabled := false }, some why)) ∨
    (b.enabled = true ∧ b.tone = none ∧ ∃ mixer tone, b.setUp = (mixer, .ok tone) ∧
      b.emit = (({ b.asked with mixer, tone := some tone } : Buzzer).sound tone, none)) := by
  rw [emit_eq]
  cases henabled : b.enabled with
  | false => exact Or.inl ⟨rfl, rfl⟩
  | true =>
      cases htone : b.tone with
      | some tone => exact Or.inr (Or.inl ⟨rfl, tone, rfl, rfl⟩)
      | none =>
          rcases hsetUp : b.setUp with ⟨mixer, why | tone⟩
          · exact Or.inr (Or.inr (Or.inl ⟨rfl, rfl, mixer, why, rfl, rfl⟩))
          · exact Or.inr (Or.inr (Or.inr ⟨rfl, rfl, mixer, tone, rfl, rfl⟩))

/-- Starting the tone is a matter of the channel: it stays as it is, or it is told to play. -/
theorem sound_cases (b : Buzzer) (tone : Tone) :
    (b.mixer.busy = true ∧ b.sound tone = b) ∨
    (b.mixer.busy = false ∧
      b.sound tone = b.withMixer ({ b.mixer with busy := true }.tell (.play tone.samples))) := by
  unfold sound
  cases b.mixer.busy with
  | true => exact Or.inl ⟨rfl, rfl⟩
  | false => exact Or.inr ⟨rfl, rfl⟩

theorem sound_withMixer (b : Buzzer) (tone : Tone) : ∃ mixer, b.sound tone = b.withMixer mixer := by
  rcases b.sound_cases tone with ⟨_, hs⟩ | ⟨_, hs⟩
  · exact ⟨b.mixer, hs⟩
  · exact ⟨_, hs⟩

theorem sound_tone (b : Buzzer) (tone : Tone) :
    (b.sound tone).tone = b.tone ∧ (b.sound tone).mixer.isOpen = b.mixer.isOpen := by
  rcases b.sound_cases tone with ⟨_, hs⟩ | ⟨_, hs⟩
  · rw [hs]; exact ⟨rfl, rfl⟩
  · rw [hs]; exact ⟨rfl, rfl⟩

theorem sound_mixer (b : Buzzer) (tone : Tone) :
    (b.sound tone).mixer.busy = true ∧
      (b.sound tone).mixer.calls =
        (if b.mixer.busy then [] else [.play tone.samples]) ++ b.mixer.calls := by
  rcases b.sound_cases tone with ⟨hbusy, hs⟩ | ⟨hbusy, hs⟩
  · rw [hs, hbusy]; exact ⟨rfl, rfl⟩
  · rw [hs, hbusy]; exact ⟨rfl, rfl⟩

theorem stop_of_tone {tone : Tone} (h : b.tone = some tone) :
    b.stop = b.withMixer ({ b.mixer with busy := false }.tell .stop) := by
  unfold stop
  split
  · rfl
  · rename_i hnone
    rw [h] at hnone
    exact absurd hnone (by simp)

theorem stop_of_none (h : b.tone = none) : b.stop = b := by
  rw [stop, h]

/-! ## What an event tells the mixer -/

/-- The call that starts the tone: one if sound is on, a tone is at hand and the channel is idle. -/
def starts (b : Buzzer) : List MixerCall :=
  if b.enabled && !b.mixer.busy then
    match (b.handle .emit).tone with
    | some tone => [.play tone.samples]
    | none => []
  else []

/-- What a request tells the mixer: what prepares the tone, and then what starts it. -/
structure Tells (b : Buzzer) (calls : List MixerCall) : Prop where
  told : (b.handle .emit).mixer.calls = b.starts ++ (calls ++ b.mixer.calls)
  silent : Silent calls
  opens : ∀ rate, .opened rate ∈ calls →
    b.enabled = true ∧ b.tone = none ∧ b.mixer.isOpen = false
  /-- A tone is not at hand before the volume is set. -/
  volume : b.tone = none → (b.handle .emit).tone ≠ none → b.VolumeSet calls
  /-- The channel sounds on or begins to, unless there is no tone. -/
  busy : (b.handle .emit).mixer.busy = (b.mixer.busy || !b.starts.isEmpty)

theorem starts_of_silent (h : b.enabled = false ∨ (b.handle .emit).tone = none) : b.starts = [] := by
  rw [starts]
  rcases h with hoff | hnone
  · rw [hoff]
    rfl
  · rw [hnone]
    cases b.enabled && !b.mixer.busy <;> rfl

/-- A request that ends with the tone tells the mixer to play if the channel was idle. -/
theorem told_of_sound {ready : Buzzer} {tone : Tone} {calls : List MixerCall}
    (hon : b.enabled = true) (hafter : b.handle .emit = ready.sound tone)
    (htone : ready.tone = some tone) (hbusy : ready.mixer.busy = b.mixer.busy)
    (hcalls : ready.mixer.calls = calls ++ b.mixer.calls) :
    (b.handle .emit).mixer.calls = b.starts ++ (calls ++ b.mixer.calls) ∧
      (b.handle .emit).mixer.busy = (b.mixer.busy || !b.starts.isEmpty) := by
  obtain ⟨hsounds, htells⟩ := ready.sound_mixer tone
  have hstarts : b.starts = if ready.mixer.busy then [] else [.play tone.samples] := by
    rw [starts, hon, hafter, (ready.sound_tone tone).1, htone, hbusy]
    cases b.mixer.busy <;> rfl
  rw [hafter, hstarts, htells, hsounds, hcalls, ← hbusy]
  cases ready.mixer.busy <;> exact ⟨rfl, rfl⟩

/-- **A request tells the mixer what prepares the tone and what starts it**, and the second only if
the channel is idle. -/
theorem emit_tells (b : Buzzer) : ∃ calls, b.Tells calls := by
  rcases b.emit_cases with ⟨hoff, he⟩ | ⟨hon, tone, htone, he⟩ | ⟨hon, hnone, mixer, why, hs, he⟩ |
      ⟨hon, hnone, mixer, tone, hs, he⟩
  · have hafter : b.handle .emit = b.asked := congrArg Prod.fst he
    have hstarts := b.starts_of_silent (Or.inl hoff)
    refine ⟨[], ?_, by simp [Silent], by simp, fun hnone hsome => ?_, ?_⟩
    · rw [hafter, hstarts]; rfl
    · rw [hafter] at hsome; exact absurd hnone hsome
    · rw [hafter, hstarts]; exact (Bool.or_false _).symm
  · have hafter : b.handle .emit = b.asked.sound tone := congrArg Prod.fst he
    have hcalls : b.asked.mixer.calls = [] ++ b.mixer.calls := rfl
    obtain ⟨htold, hbusy⟩ := told_of_sound hon hafter htone rfl hcalls
    refine ⟨[], htold, by simp [Silent], by simp, fun hnone _ => ?_, hbusy⟩
    rw [htone] at hnone
    exact absurd hnone (by simp)
  · have hafter : b.handle .emit = { b.asked with mixer, enabled := false } := congrArg Prod.fst he
    have hstarts := b.starts_of_silent (Or.inr (hafter ▸ hnone))
    obtain ⟨calls, hprepares, _⟩ := b.setUp_prepares
    rw [hs] at hprepares
    refine ⟨calls, ?_, hprepares.silent, fun rate hmem => ⟨hon, hnone, hprepares.opens rate hmem⟩,
      fun _ hsome => ?_, ?_⟩
    · rw [hafter, hstarts]; exact hprepares.told
    · rw [hafter] at hsome; exact absurd hnone hsome
    · rw [hafter, hstarts]; exact hprepares.busy.trans (Bool.or_false _).symm
  · have hafter : b.handle .emit = ({ b.asked with mixer, tone := some tone } : Buzzer).sound tone :=
      congrArg Prod.fst he
    obtain ⟨calls, hprepares, hvolume⟩ := b.setUp_prepares
    rw [hs] at hprepares hvolume
    obtain ⟨htold, hbusy⟩ := told_of_sound hon hafter rfl hprepares.busy hprepares.told
    exact ⟨calls, htold, hprepares.silent, fun rate hmem => ⟨hon, hnone, hprepares.opens rate hmem⟩,
      fun _ _ => hvolume tone rfl, hbusy⟩

/-- Nothing else starts a tone or opens the mixer. -/
theorem tells_of_ne {event : BuzzerEvent} (h : event ≠ .emit) :
    ∃ calls, (b.handle event).mixer.calls = calls ++ b.mixer.calls ∧
      (calls = [] ∨ calls = [.stop]) := by
  cases event with
  | emit => exact absurd rfl h
  | stop =>
      change ∃ calls, b.stop.mixer.calls = calls ++ b.mixer.calls ∧ _
      cases htone : b.tone with
      | some tone =>
          rw [stop_of_tone htone]
          exact ⟨[.stop], rfl, Or.inr rfl⟩
      | none =>
          rw [stop_of_none htone]
          exact ⟨[], rfl, Or.inl rfl⟩
  | finish => exact ⟨[], rfl, Or.inl rfl⟩

/-- What was told is what the list has grown by. -/
theorem told_eq {event : BuzzerEvent} {calls : List MixerCall}
    (h : (b.handle event).mixer.calls = calls ++ b.mixer.calls) : b.told event = calls := by
  simp only [told, h, List.length_append, Nat.add_sub_cancel, List.take_left]

theorem Tells.told_emit {calls : List MixerCall} (h : b.Tells calls) :
    b.told .emit = b.starts ++ calls := by
  refine told_eq ?_
  rw [h.told, List.append_assoc]

theorem starts_eq_nil (h : ¬ (b.enabled = true ∧ (b.handle .emit).tone ≠ none ∧
    b.mixer.busy = false)) : b.starts = [] := by
  unfold starts
  cases henabled : b.enabled with
  | false => rfl
  | true =>
      cases hbusy : b.mixer.busy with
      | true => rfl
      | false =>
          cases htone : (b.handle .emit).tone with
          | none => rfl
          | some tone =>
              refine absurd ⟨henabled, ?_, hbusy⟩ h
              rw [htone]
              simp

/-- **A tone is started by a request** with sound on, a tone at hand and an idle channel, and
otherwise not. -/
theorem plays_iff {event : BuzzerEvent} :
    b.Plays event ↔ event = .emit ∧ b.enabled = true ∧ (b.handle .emit).tone ≠ none ∧
      b.mixer.busy = false := by
  by_cases hemit : event = .emit
  · subst hemit
    obtain ⟨calls, htells⟩ := b.emit_tells
    constructor
    · rintro ⟨samples, hmem⟩
      rw [htells.told_emit] at hmem
      refine ⟨rfl, Classical.byContradiction fun hnot => ?_⟩
      rw [starts_eq_nil hnot, List.nil_append] at hmem
      exact htells.silent samples hmem
    · rintro ⟨_, henabled, hsome, hbusy⟩
      obtain ⟨tone, htone⟩ := Option.ne_none_iff_exists'.mp hsome
      refine ⟨tone.samples, ?_⟩
      have hstarts : b.starts = [.play tone.samples] := by
        rw [starts, henabled, hbusy, htone]
        rfl
      rw [htells.told_emit, hstarts]
      exact List.mem_cons_self
  · constructor
    · rintro ⟨samples, hmem⟩
      obtain ⟨calls, hcalls, hwhich⟩ := tells_of_ne (b := b) hemit
      rw [told_eq hcalls] at hmem
      rcases hwhich with rfl | rfl
      · exact absurd hmem List.not_mem_nil
      · exact absurd (List.mem_singleton.mp hmem) (by simp)
    · rintro ⟨rfl, _⟩
      exact absurd rfl hemit

/-! ## One set-up at most -/

/-- There is no set-up to come: sound is off, or the tone is at hand. -/
def Settled (b : Buzzer) : Prop := b.enabled = true → b.tone ≠ none

theorem settled_emit (b : Buzzer) : (b.handle .emit).Settled := by
  rcases b.emit_cases with ⟨hoff, he⟩ | ⟨_, tone, htone, he⟩ | ⟨_, _, mixer, why, _, he⟩ |
      ⟨_, _, mixer, tone, _, he⟩
  · intro hon
    rw [handle, he] at hon
    exact absurd (hoff.symm.trans hon) (by simp)
  · intro _
    rw [handle, he, (b.asked.sound_tone tone).1]
    change b.tone ≠ none
    rw [htone]
    simp
  · intro hon
    rw [handle, he] at hon
    exact absurd hon (by simp)
  · intro _
    rw [handle, he, (sound_tone _ tone).1]
    simp

/-- Silencing and finishing leave everything but the mixer. -/
theorem handle_of_ne {event : BuzzerEvent} (h : event ≠ .emit) :
    ∃ mixer, b.handle event = b.withMixer mixer := by
  cases event with
  | emit => exact absurd rfl h
  | stop =>
      change ∃ mixer, b.stop = b.withMixer mixer
      cases htone : b.tone with
      | some tone => exact ⟨_, stop_of_tone htone⟩
      | none => exact ⟨b.mixer, stop_of_none htone⟩
  | finish => exact ⟨_, rfl⟩

theorem Settled.handle (h : b.Settled) (event : BuzzerEvent) : (b.handle event).Settled := by
  by_cases hemit : event = .emit
  · rw [hemit]
    exact b.settled_emit
  · obtain ⟨mixer, hafter⟩ := handle_of_ne (b := b) hemit
    rw [hafter]
    exact h

/-- Sound that was switched off stays off. -/
theorem handle_off (h : b.enabled = false) (event : BuzzerEvent) :
    (b.handle event).enabled = false ∧ (b.handle event).tone = b.tone := by
  by_cases hemit : event = .emit
  · subst hemit
    rcases b.emit_cases with ⟨_, he⟩ | ⟨hon, _⟩ | ⟨hon, _⟩ | ⟨hon, _⟩
    · rw [handle, he]
      exact ⟨h, rfl⟩
    all_goals exact absurd (h.symm.trans hon) (by simp)
  · obtain ⟨mixer, hafter⟩ := handle_of_ne (b := b) hemit
    rw [hafter]
    exact ⟨h, rfl⟩

/-- **Without sound and without a tone the mixer is spared**: nothing is told to it, and nothing
asked. -/
theorem sparesMixer (hoff : b.enabled = false) (hnone : b.tone = none) {event : BuzzerEvent}
    (h : event ≠ .finish) : b.SparesMixer event := by
  intro mixer
  cases event with
  | emit =>
      have hall : ∀ b : Buzzer, b.enabled = false → b.handle .emit = b.asked := by
        intro b hoff
        rw [handle, emit_eq, hoff]
        rfl
      rw [hall b hoff, hall (b.withMixer mixer) hoff]
      rfl
  | stop =>
      change (b.withMixer mixer).stop = b.stop.withMixer mixer
      rw [stop_of_none hnone, stop_of_none (b := b.withMixer mixer) hnone]
  | finish => exact absurd rfl h

/-- So the mixer is what it was. -/
theorem SparesMixer.mixer_eq {event : BuzzerEvent} (h : b.SparesMixer event) :
    (b.handle event).mixer = b.mixer := by
  change _ = ((b.handle event).withMixer b.mixer).mixer
  exact congrArg Buzzer.mixer (h b.mixer)

/-- A request with sound on and no tone opens the mixer, unless it refuses. -/
theorem emit_isOpen (henabled : b.enabled = true) (hnone : b.tone = none) :
    (b.handle .emit).mixer.isOpen = (b.mixer.isOpen || b.mixer.refusal.isNone) := by
  obtain ⟨calls, hprepares, _⟩ := b.setUp_prepares
  rcases b.emit_cases with ⟨hoff, _⟩ | ⟨_, tone, htone, _⟩ | ⟨_, _, mixer, why, hs, he⟩ |
      ⟨_, _, mixer, tone, hs, he⟩
  · rw [hoff] at henabled; exact absurd henabled (by simp)
  · rw [hnone] at htone; exact absurd htone (by simp)
  · rw [hs] at hprepares
    rw [handle, he]
    exact hprepares.isOpen
  · rw [hs] at hprepares
    rw [handle, he, (sound_tone _ tone).2]
    exact hprepares.isOpen

/-- On an open mixer a set-up does not come across the refusal. -/
theorem setUp_withRefusal (hopen : b.mixer.isOpen = true) (refusal : Option String) :
    (b.withRefusal refusal).setUp = ({ b.setUp.1 with refusal }, b.setUp.2) := by
  have hall : ∀ b : Buzzer, b.mixer.isOpen = true → b.mixer.openAt b.sampleRate = .ok b.mixer :=
    fun _ hopen => if_pos hopen
  have hrender : (b.withRefusal refusal).render = b.render := rfl
  have hvolume : (b.withRefusal refusal).volume = b.volume := rfl
  unfold setUp
  rw [hall b hopen, hall (b.withRefusal refusal) hopen, hrender, hvolume]
  cases b.render with
  | error trouble => rfl
  | ok tone =>
      cases b.volume.toFloat with
      | error trouble => rfl
      | ok level => rfl

theorem sound_withRefusal (b : Buzzer) (refusal : Option String) (tone : Tone) :
    (b.withRefusal refusal).sound tone = (b.sound tone).withRefusal refusal := by
  have hbusy : (b.withRefusal refusal).mixer.busy = b.mixer.busy := rfl
  unfold sound
  rw [hbusy]
  cases b.mixer.busy <;> rfl

/-- A request that does not set an unopened mixer up does not come across the refusal either. -/
theorem emit_withRefusal (h : b.enabled = true → b.tone = none → b.mixer.isOpen = true)
    (refusal : Option String) :
    (b.withRefusal refusal).handle .emit = (b.handle .emit).withRefusal refusal := by
  have henabled : (b.withRefusal refusal).enabled = b.enabled := rfl
  have htone : (b.withRefusal refusal).tone = b.tone := rfl
  rw [handle, handle, emit_eq, emit_eq, henabled, htone]
  cases hon : b.enabled with
  | false => rfl
  | true =>
      cases hsome : b.tone with
      | some tone => exact b.asked.sound_withRefusal refusal tone
      | none =>
          rw [setUp_withRefusal (h hon hsome)]
          rcases b.setUp with ⟨mixer, why | tone⟩
          · rfl
          · exact sound_withRefusal { b.asked with mixer, tone := some tone } refusal tone

/-- **The mixer is asked to open by the one request that sets it up**, if it is not open yet. -/
theorem asksToOpen_iff {event : BuzzerEvent} :
    b.AsksToOpen event ↔
      event = .emit ∧ b.enabled = true ∧ b.tone = none ∧ b.mixer.isOpen = false := by
  constructor
  · rintro ⟨refusal, hdiffers⟩
    refine Classical.byContradiction fun hnot => hdiffers ?_
    cases event with
    | stop =>
        change (b.withRefusal refusal).stop = b.stop.withRefusal refusal
        cases htone : b.tone with
        | some tone =>
            rw [stop_of_tone htone, stop_of_tone (b := b.withRefusal refusal) htone]
            rfl
        | none => rw [stop_of_none htone, stop_of_none (b := b.withRefusal refusal) htone]
    | finish => rfl
    | emit =>
        refine emit_withRefusal (fun hon hnone => ?_) refusal
        rw [← Bool.not_eq_false]
        exact fun hclosed => hnot ⟨rfl, hon, hnone, hclosed⟩
  · rintro ⟨rfl, hon, hnone, hclosed⟩
    -- a mixer that refuses stays closed, and one that does not is open then
    have hdiffers : ∀ refusal : Option String, refusal.isNone ≠ b.mixer.refusal.isNone →
        b.AsksToOpen .emit := by
      intro refusal hne
      refine ⟨refusal, fun hsame => hne ?_⟩
      have hother := emit_isOpen (b := b.withRefusal refusal) hon hnone
      have hthis := emit_isOpen hon hnone
      rw [hsame] at hother
      change (b.handle .emit).mixer.isOpen = (b.mixer.isOpen || refusal.isNone) at hother
      rw [hthis, hclosed, Bool.false_or, Bool.false_or] at hother
      exact hother.symm
    cases hrefusal : b.mixer.refusal with
    | none => exact hdiffers (some "") (by rw [hrefusal]; simp)
    | some why => exact hdiffers none (by rw [hrefusal]; simp)

/-- What starts the tone does not open the mixer. -/
theorem opened_not_mem_starts (rate : Number.Quantity) : .opened rate ∉ b.starts := by
  unfold starts
  split
  · split
    · simp
    · exact List.not_mem_nil
  · exact List.not_mem_nil

/-- A mixer that was opened was asked to open. -/
theorem asksToOpen_of_opened {event : BuzzerEvent} {rate : Number.Quantity}
    (h : .opened rate ∈ b.told event) : b.AsksToOpen event := by
  rw [asksToOpen_iff]
  by_cases hemit : event = .emit
  · subst hemit
    obtain ⟨calls, htells⟩ := b.emit_tells
    rw [htells.told_emit] at h
    rcases List.mem_append.mp h with hstarts | hcalls
    · exact absurd hstarts (opened_not_mem_starts rate)
    · exact ⟨rfl, htells.opens rate hcalls⟩
  · obtain ⟨calls, hcalls, hwhich⟩ := tells_of_ne (b := b) hemit
    rw [told_eq hcalls] at h
    rcases hwhich with rfl | rfl
    · exact absurd h List.not_mem_nil
    · exact absurd (List.mem_singleton.mp h) (by simp)

/-! ## Any number of events -/

theorem after_cons (b : Buzzer) (event : BuzzerEvent) (events : List BuzzerEvent) :
    b.after (event :: events) = (b.handle event).after events := rfl

/-- **What each event keeps, all of them keep.** -/
theorem after_keeps {P : Buzzer → Prop} (hhandle : ∀ b event, P b → P (b.handle event))
    (events : List BuzzerEvent) (h : P b) : P (b.after events) := by
  induction events generalizing b with
  | nil => exact h
  | cons event rest ih =>
      rw [after_cons]
      exact ih (hhandle b event h)

theorem handle_requests (b : Buzzer) (event : BuzzerEvent) :
    (b.handle event).requests = b.requests + [event].count .emit := by
  by_cases hemit : event = .emit
  · rw [hemit]
    exact b.emit_requests
  · obtain ⟨mixer, hafter⟩ := handle_of_ne (b := b) hemit
    rw [hafter, List.count_singleton, if_neg (by simpa using hemit)]
    rfl

/-- The requests are those that were made. -/
theorem after_requests (b : Buzzer) (events : List BuzzerEvent) :
    (b.after events).requests = b.requests + events.count .emit := by
  induction events generalizing b with
  | nil => rfl
  | cons event rest ih =>
      have hcount : (event :: rest).count .emit = [event].count .emit + rest.count .emit := by
        rw [← List.count_append, List.singleton_append]
      rw [after_cons, ih, handle_requests, hcount, Nat.add_assoc]

/-- **No event changes what is wanted**: the length, the pitch and the volume of the tone. -/
theorem handle_keeps_wanted (b : Buzzer) (event : BuzzerEvent) :
    ∃ requests enabled mixer tone, b.handle event = { b with requests, enabled, mixer, tone } := by
  by_cases hemit : event = .emit
  · subst hemit
    rcases b.emit_cases with ⟨_, he⟩ | ⟨_, tone, _, he⟩ | ⟨_, _, mixer, why, _, he⟩ |
        ⟨_, _, mixer, tone, _, he⟩
    · exact ⟨_, _, _, _, congrArg Prod.fst he⟩
    · obtain ⟨mixer, hs⟩ := b.asked.sound_withMixer tone
      rw [handle, he, hs]
      exact ⟨_, _, _, _, rfl⟩
    · exact ⟨_, _, _, _, congrArg Prod.fst he⟩
    · obtain ⟨mixer', hs⟩ :=
        sound_withMixer { b.asked with mixer, tone := some tone } tone
      rw [handle, he, hs]
      exact ⟨_, _, _, _, rfl⟩
  · obtain ⟨mixer, hafter⟩ := handle_of_ne (b := b) hemit
    exact ⟨_, _, mixer, _, hafter⟩

theorem handle_volume (b : Buzzer) (event : BuzzerEvent) : (b.handle event).volume = b.volume := by
  obtain ⟨_, _, _, _, hafter⟩ := b.handle_keeps_wanted event
  rw [hafter]

/-- **Between two plays the channel comes to rest**: it is stopped, or it finishes. -/
theorem plays_apart {between : List BuzzerEvent} (hfirst : b.Plays .emit)
    (hsecond : ((b.handle .emit).after between).Plays .emit) :
    .stop ∈ between ∨ .finish ∈ between := by
  refine Classical.byContradiction fun hnot => ?_
  have hrequest : ∀ event ∈ between, event = .emit := by
    intro event hmem
    cases event with
    | emit => rfl
    | stop => exact absurd (Or.inl hmem) hnot
    | finish => exact absurd (Or.inr hmem) hnot
  have hbusy : (b.handle .emit).mixer.busy = true := by
    obtain ⟨calls, htells⟩ := b.emit_tells
    obtain ⟨_, henabled, hsome, hidle⟩ := plays_iff.mp hfirst
    obtain ⟨tone, htone⟩ := Option.ne_none_iff_exists'.mp hsome
    rw [htells.busy, starts, henabled, hidle, htone]
    rfl
  -- a channel that sounds goes on sounding through requests
  have hkept : ∀ (events : List BuzzerEvent) (b : Buzzer), (∀ event ∈ events, event = .emit) →
      b.mixer.busy = true → (b.after events).mixer.busy = true := by
    intro events
    induction events with
    | nil => exact fun _ _ h => h
    | cons event rest ih =>
        intro b hall h
        obtain ⟨calls, htells⟩ := b.emit_tells
        rw [after_cons, hall event List.mem_cons_self]
        refine ih _ (fun e he => hall e (List.mem_cons_of_mem _ he)) ?_
        rw [htells.busy, h, Bool.true_or]
  have hsounding := hkept between _ hrequest hbusy
  rw [(plays_iff.mp hsecond).2.2.2] at hsounding
  exact absurd hsounding (by simp)

/-! ## The volume comes first -/

/-- The volume was set before every play, and before there was a tone. -/
structure VolumeFirst (b : Buzzer) : Prop where
  tone : b.tone ≠ none → b.VolumeSet b.mixer.calls
  plays : ∀ samples earlier, .play samples :: earlier <:+ b.mixer.calls → b.VolumeSet earlier

theorem VolumeSet.more {calls : List MixerCall} (h : b.VolumeSet calls) (more : List MixerCall) :
    b.VolumeSet (more ++ calls) := by
  obtain ⟨level, hlevel, hmem⟩ := h
  exact ⟨level, hlevel, List.mem_append_right _ hmem⟩

/-- A play has nothing of what is not one. -/
theorem suffix_of_silent {calls more earlier : List MixerCall} {samples : Nat}
    (hsilent : Silent more) (h : .play samples :: earlier <:+ more ++ calls) :
    .play samples :: earlier <:+ calls := by
  induction more with
  | nil => exact h
  | cons call rest ih =>
      rw [List.cons_append, List.suffix_cons_iff] at h
      rcases h with heq | hsuffix
      · obtain ⟨rfl, _⟩ := List.cons.inj heq
        exact absurd List.mem_cons_self (hsilent samples)
      · exact ih (fun n hmem => hsilent n (List.mem_cons_of_mem _ hmem)) hsuffix

theorem VolumeFirst.emit (h : b.VolumeFirst) : (b.handle .emit).VolumeFirst := by
  obtain ⟨calls, htells⟩ := b.emit_tells
  have hvolume := b.handle_volume .emit
  -- what is told before the tone is started ends with the volume being set
  have hset : (b.handle .emit).tone ≠ none → b.VolumeSet (calls ++ b.mixer.calls) := by
    intro hsome
    by_cases hnone : b.tone = none
    · obtain ⟨level, hlevel, hmem⟩ := htells.volume hnone hsome
      exact ⟨level, hlevel, List.mem_append_left _ hmem⟩
    · exact (h.tone hnone).more calls
  constructor
  · intro hsome
    rw [VolumeSet, hvolume, htells.told]
    exact (hset hsome).more _
  · intro samples earlier hsuffix
    rw [VolumeSet, hvolume]
    rw [htells.told] at hsuffix
    by_cases hstarts : b.enabled = true ∧ (b.handle .emit).tone ≠ none ∧ b.mixer.busy = false
    · obtain ⟨tone, htone⟩ := Option.ne_none_iff_exists'.mp hstarts.2.1
      have hone : b.starts = [.play tone.samples] := by
        rw [starts, hstarts.1, hstarts.2.2, htone]
        rfl
      rw [hone, List.singleton_append, List.suffix_cons_iff] at hsuffix
      rcases hsuffix with heq | hsuffix
      · rw [(List.cons.inj heq).2]
        exact hset hstarts.2.1
      · exact h.plays samples earlier (suffix_of_silent htells.silent hsuffix)
    · rw [starts_eq_nil hstarts, List.nil_append] at hsuffix
      exact h.plays samples earlier (suffix_of_silent htells.silent hsuffix)

/-- **Every event keeps the order.** -/
theorem VolumeFirst.handle (h : b.VolumeFirst) (event : BuzzerEvent) :
    (b.handle event).VolumeFirst := by
  by_cases hemit : event = .emit
  · rw [hemit]
    exact h.emit
  · obtain ⟨mixer, hafter⟩ := handle_of_ne (b := b) hemit
    obtain ⟨calls, hcalls, hwhich⟩ := tells_of_ne (b := b) hemit
    have hsilent : Silent calls := by
      rcases hwhich with rfl | rfl
      · simp [Silent]
      · simp [Silent]
    have htone : (b.handle event).tone = b.tone := by rw [hafter]; rfl
    constructor
    · intro hsome
      rw [VolumeSet, b.handle_volume event, hcalls]
      rw [htone] at hsome
      exact (h.tone hsome).more calls
    · intro samples earlier hsuffix
      rw [VolumeSet, b.handle_volume event]
      rw [hcalls] at hsuffix
      exact h.plays samples earlier (suffix_of_silent hsilent hsuffix)

/-! ## The main statement -/

/-- The mixer is set up, at the latest by the next request. -/
def Ready (b : Buzzer) : Prop := b.tone ≠ none ∨ ∃ tone, b.setUp.2 = .ok tone

theorem emit_tone (henabled : b.enabled = true) :
    (b.handle .emit).tone ≠ none ↔ b.Ready := by
  unfold Ready
  rcases b.emit_cases with ⟨hoff, _⟩ | ⟨_, tone, htone, he⟩ | ⟨_, hnone, mixer, why, hs, he⟩ |
      ⟨_, hnone, mixer, tone, hs, he⟩
  · rw [hoff] at henabled; exact absurd henabled (by simp)
  · rw [handle, he, (sound_tone _ tone).1]
    change b.tone ≠ none ↔ _
    simp [htone]
  · rw [handle, he]
    change b.tone ≠ none ↔ _
    simp [hnone, hs]
  · rw [handle, he, (sound_tone _ tone).1]
    simp [hs]

/-- A request tells why sound was switched off exactly if its set-up failed. -/
theorem emit_why (b : Buzzer) (why : String) :
    b.emit.2 = some why ↔ b.enabled = true ∧ b.tone = none ∧ b.setUp.2 = .error why := by
  rcases b.emit_cases with ⟨hoff, he⟩ | ⟨_, tone, htone, he⟩ | ⟨hon, hnone, mixer, why', hs, he⟩ |
      ⟨_, _, mixer, tone, hs, he⟩
  · rw [he, hoff]; simp
  · rw [he, htone]; simp
  · rw [he, hs]; simp [hon, hnone]
  · rw [he, hs]; simp

/-- A request that tells why leaves sound off and no tone. -/
theorem off_of_why {why : String} (h : b.emit.2 = some why) :
    (b.handle .emit).enabled = false ∧ (b.handle .emit).tone = none := by
  rcases b.emit_cases with ⟨_, he⟩ | ⟨_, tone, _, he⟩ | ⟨_, hnone, mixer, _, _, he⟩ |
      ⟨_, _, mixer, tone, _, he⟩
  · rw [he] at h; exact absurd h (by simp)
  · rw [he] at h; exact absurd h (by simp)
  · rw [handle, he]; exact ⟨rfl, hnone⟩
  · rw [he] at h; exact absurd h (by simp)

/-- **What is off without a tone stays so.** -/
theorem after_off (hoff : b.enabled = false) (hnone : b.tone = none) (events : List BuzzerEvent) :
    (b.after events).enabled = false ∧ (b.after events).tone = none := by
  refine after_keeps (P := fun b => b.enabled = false ∧ b.tone = none) ?_ events ⟨hoff, hnone⟩
  intro b event h
  obtain ⟨henabled, htone⟩ := handle_off h.1 event
  exact ⟨henabled, htone.trans h.2⟩

/-- So it tells the mixer nothing. -/
theorem after_off_calls (hoff : b.enabled = false) (hnone : b.tone = none)
    (events : List BuzzerEvent) : (b.after events).mixer.calls = b.mixer.calls := by
  induction events generalizing b with
  | nil => rfl
  | cons event rest ih =>
      obtain ⟨henabled, htone⟩ := handle_off hoff event
      rw [after_cons, ih henabled (htone.trans hnone)]
      by_cases hfinish : event = .finish
      · rw [hfinish]
        rfl
      · rw [(sparesMixer hoff hnone hfinish).mixer_eq]

theorem New.volumeFirst (h : b.New) : b.VolumeFirst := by
  refine ⟨fun hsome => absurd h.tone hsome, fun samples earlier hsuffix => ?_⟩
  rw [h.calls, List.suffix_nil] at hsuffix
  exact absurd hsuffix (List.cons_ne_nil _ _)

/-- The life of a buzzer that events have happened to. -/
structure LifeCycle (start : Buzzer) (events : List BuzzerEvent) (b : Buzzer) : Prop where
  /-- The history shows the requests, up to its limit. -/
  history : b.historyLength = min 256 (events.count .emit)
  /-- Only a request with sound on asks the mixer to open, and nothing asks it a second time. -/
  opening : ∀ event, b.AsksToOpen event →
    event = .emit ∧ b.enabled = true ∧
      ∀ more again, ¬ ((b.handle event).after more).AsksToOpen again
  /-- So the mixer opens once at most. -/
  opened : ∀ event rate, .opened rate ∈ b.told event → b.AsksToOpen event
  /-- Once the mixer is set up, a request starts the tone exactly if the channel is idle. -/
  playing : b.enabled = true → b.Ready → (b.Plays .emit ↔ b.mixer.busy = false)
  /-- Nothing else starts it, and it is not started again before the channel came to rest. -/
  apart : ∀ event, b.Plays event → event = .emit ∧
    ∀ between, ((b.handle .emit).after between).Plays .emit → .stop ∈ between ∨ .finish ∈ between
  /-- What was told before a play holds the volume that was wanted from the start. -/
  volume : ∀ samples earlier, .play samples :: earlier <:+ b.mixer.calls →
    ∃ level, start.volume.toFloat = .ok level ∧ .volume level ∈ earlier
  /-- Whatever goes wrong in a request goes wrong in its set-up, and is told, not passed on. -/
  failure : ∀ why, b.emit.2 = some why ↔
    b.enabled = true ∧ b.tone = none ∧ b.setUp.2 = .error why
  /-- Then sound is off for good, and neither requests nor stops have to do with the mixer. -/
  disabled : ∀ why, b.emit.2 = some why → ∀ more,
    ((b.handle .emit).after more).enabled = false ∧
      ∀ event, event ≠ .finish → ((b.handle .emit).after more).SparesMixer event
  /-- So it is from the beginning if sound was off. -/
  muted : start.enabled = false → b.mixer.calls = [] ∧
    ∀ event, event ≠ .finish → b.SparesMixer event

/--
**A buzzer keeps to its life cycle**, whatever is wanted of it and whatever its mixer does.

A request and a stop have no other end than a buzzer. All that can go wrong is caught in the set-up
and becomes the reason why sound was switched off.
-/
theorem buzzer_lifeCycle {start : Buzzer} (h : start.New) (events : List BuzzerEvent) :
    start.LifeCycle events (start.after events) where
  history := by
    rw [historyLength, after_requests, h.requests, Nat.zero_add]
  opening := by
    intro event hasks
    obtain ⟨rfl, hon, _, _⟩ := asksToOpen_iff.mp hasks
    refine ⟨rfl, hon, fun more again hagain => ?_⟩
    have hsettled := after_keeps (P := Settled) (fun _ event h => h.handle event) more
      (start.after events).settled_emit
    obtain ⟨_, hon', hnone, _⟩ := asksToOpen_iff.mp hagain
    exact hsettled hon' hnone
  opened := fun _ _ hmem => asksToOpen_of_opened hmem
  playing := by
    intro hon hready
    rw [plays_iff, emit_tone hon]
    exact ⟨fun hplays => hplays.2.2.2, fun hidle => ⟨rfl, hon, hready, hidle⟩⟩
  apart := by
    intro event hplays
    obtain rfl : event = .emit := (plays_iff.mp hplays).1
    exact ⟨rfl, fun between hagain => plays_apart hplays hagain⟩
  volume := by
    have hvolume : (start.after events).volume = start.volume :=
      after_keeps (P := fun b => b.volume = start.volume)
        (fun b event hb => (b.handle_volume event).trans hb) events rfl
    have hfirst : (start.after events).VolumeFirst :=
      after_keeps (fun _ event hb => hb.handle event) events h.volumeFirst
    intro samples earlier hsuffix
    rw [← hvolume]
    exact hfirst.plays samples earlier hsuffix
  failure := (start.after events).emit_why
  disabled := by
    intro why hwhy more
    obtain ⟨hoff, hnone⟩ := off_of_why hwhy
    obtain ⟨hstays, htone⟩ := after_off hoff hnone more
    exact ⟨hstays, fun event hne => sparesMixer hstays htone hne⟩
  muted := by
    intro hoff
    obtain ⟨hstays, htone⟩ := after_off hoff h.tone events
    refine ⟨?_, fun event hne => sparesMixer hstays htone hne⟩
    rw [after_off_calls hoff h.tone, h.calls]

/-- Two buzzers with sound on, one whose mixer has a device and one whose mixer has none.

The first request sets up a tone of 735 samples and plays it, the volume having been set before.
While it sounds no request plays it again, and once it has finished the next one does. Without a
device the first request, which comes after a stop, switches sound off for good. -/
theorem buzzer_lifeCycle_devices :
    let start : Buzzer := { enabled := true }
    let sounding := start.after [.emit]
    let mute : Buzzer := { enabled := true, mixer := { refusal := some "no audio device" } }
    let asked := mute.after [.stop]
    (start.New ∧ start.Ready ∧ start.AsksToOpen .emit ∧ start.Plays .emit ∧
      sounding.Ready ∧ ¬ sounding.AsksToOpen .emit ∧ ¬ (start.after [.emit, .emit]).Plays .emit ∧
      (start.after [.emit, .finish]).Plays .emit ∧
      ∃ level earlier, sounding.mixer.calls = .play 735 :: earlier ∧
        start.volume.toFloat = .ok level ∧ .volume level ∈ earlier) ∧
    mute.New ∧ asked.AsksToOpen .emit ∧ asked.emit.2 = some "no audio device" ∧
      ¬ (asked.handle .emit).AsksToOpen .emit ∧ (asked.handle .emit).SparesMixer .emit ∧
      (mute.after [.stop, .emit, .finish, .emit, .stop]).historyLength = 2 := by
  intro start sounding mute asked
  constructor
  · have hnew : start.New := ⟨rfl, rfl, rfl⟩
    have hready : start.Ready := Or.inr ⟨⟨735, 50⟩, rfl⟩
    have hasks : start.AsksToOpen .emit := asksToOpen_iff.mpr ⟨rfl, rfl, rfl, rfl⟩
    have hlife := buzzer_lifeCycle hnew []
    have hplays : start.Plays .emit := (hlife.playing rfl hready).mpr rfl
    have hsome : ∀ b : Buzzer, b.tone = some ⟨735, 50⟩ → b.Ready := by
      intro b htone
      exact Or.inl (htone ▸ Option.some_ne_none _)
    have hfinished := buzzer_lifeCycle hnew [.emit, .finish]
    have hcalls : sounding.mixer.calls = [.play 735, .volume 0.3, .opened (.whole 44100)] := rfl
    have hplay : .play 735 :: [.volume 0.3, .opened (.whole 44100)] <:+ sounding.mixer.calls :=
      ⟨[], hcalls.symm⟩
    obtain ⟨level, hlevel, hmem⟩ := (buzzer_lifeCycle hnew [.emit]).volume 735 _ hplay
    refine ⟨hnew, hready, hasks, hplays, hsome _ rfl, (hlife.opening .emit hasks).2.2 [] .emit, ?_,
      (hfinished.playing rfl (hsome _ rfl)).mpr rfl, level, _, hcalls, hlevel, hmem⟩
    intro hagain
    have hrest : .stop ∈ [BuzzerEvent.emit] ∨ .finish ∈ [BuzzerEvent.emit] :=
      (hlife.apart .emit hplays).2 [.emit] hagain
    exact absurd hrest (by simp)
  · have hnew : mute.New := ⟨rfl, rfl, rfl⟩
    have hlife := buzzer_lifeCycle hnew [.stop]
    have hasks : asked.AsksToOpen .emit := asksToOpen_iff.mpr ⟨rfl, rfl, rfl, rfl⟩
    have hwhy : asked.emit.2 = some "no audio device" := rfl
    refine ⟨hnew, hasks, hwhy, ?_, ?_, ?_⟩
    · exact (hlife.opening .emit hasks).2.2 [] .emit
    · exact (hlife.disabled _ hwhy []).2 .emit (by simp)
    · exact (buzzer_lifeCycle hnew [.stop, .emit, .finish, .emit, .stop]).history

end Buzzer

end ChipEight
