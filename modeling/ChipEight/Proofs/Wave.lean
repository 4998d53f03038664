import ChipEight.Proofs.Sounding
import ChipEight.Proofs.Success

/-!
# The wave of a tone

A tone is two numbers: how many samples it has, and after how many of them it changes sides. What is
played is written down from them as runs of one value each. Two statements say that this is the
wave that was wanted.

* Spelled out, the runs are the samples, place by place. A run ends where the samples change sides,
  so the rest of the runs is the same wave begun on the other side (`sampleFrom_add`), and the
  statement for any side and any length follows by induction along the runs.
* A buzzer plays no other tone than the one that its length and pitch come to, as many events as it
  may have been through.
-/

namespace ChipEight

namespace Tone

/-- The samples that runs stand for. -/
def spell (runs : List (Int × Nat)) : List Int :=
  runs.flatMap fun (value, count) => List.replicate count value

/-- The sample in a place of a wave that begins with a value. -/
def sampleFrom (halfPeriod : Nat) (value : Int) (k : Nat) : Int :=
  if k / halfPeriod % 2 = 0 then value else -value

theorem spell_cons (value : Int) (count : Nat) (runs : List (Int × Nat)) :
    spell ((value, count) :: runs) = List.replicate count value ++ spell runs := rfl

section Samples

variable {halfPeriod : Nat}

/-- For half a period the wave stays where it begins. -/
theorem sampleFrom_of_lt {k : Nat} (h : k < halfPeriod) (value : Int) :
    sampleFrom halfPeriod value k = value := by
  rw [sampleFrom, Nat.div_eq_of_lt h]
  rfl

/-- **After half a period it is the wave that begins on the other side.** -/
theorem sampleFrom_add (h : 0 < halfPeriod) (value : Int) (k : Nat) :
    sampleFrom halfPeriod value (halfPeriod + k) = sampleFrom halfPeriod (-value) k := by
  have hnext : (halfPeriod + k) / halfPeriod = k / halfPeriod + 1 := Nat.add_div_left k h
  unfold sampleFrom
  rw [hnext]
  by_cases heven : k / halfPeriod % 2 = 0
  · rw [if_pos heven, if_neg (by omega)]
  · rw [if_neg heven, if_pos (by omega), Int.neg_neg]

theorem sampleFrom_neg (value : Int) (k : Nat) :
    sampleFrom halfPeriod (-value) k = -sampleFrom halfPeriod value k := by
  unfold sampleFrom
  split
  · rfl
  · rfl

/-- So far it is one run. -/
theorem map_sampleFrom {count : Nat} (h : count ≤ halfPeriod) (value : Int) :
    (List.range count).map (sampleFrom halfPeriod value) = List.replicate count value := by
  refine List.eq_replicate_iff.mpr ⟨?_, fun sample hsample => ?_⟩
  · rw [List.length_map, List.length_range]
  · obtain ⟨k, hk, rfl⟩ := List.mem_map.mp hsample
    exact sampleFrom_of_lt (Nat.lt_of_lt_of_le (List.mem_range.mp hk) h) value

/-- **Runs spell out the wave**, from either side and for any number of samples. -/
theorem spell_runsFrom (h : 0 < halfPeriod) {fuel left : Nat} (hfuel : left ≤ fuel) (value : Int) :
    spell (runsFrom halfPeriod value fuel left) =
      (List.range left).map (sampleFrom halfPeriod value) := by
  induction fuel generalizing left value with
  | zero =>
      obtain rfl : left = 0 := Nat.le_zero.mp hfuel
      rfl
  | succ fuel ih =>
      rw [runsFrom]
      split
      · rename_i hnone
        rw [hnone]
        rfl
      · split
        · rename_i hlast
          rw [map_sampleFrom hlast, spell_cons]
          exact List.append_nil _
        · rename_i hmore
          have hrest := ih (show left - halfPeriod ≤ fuel by omega) (-value)
          have hsplit : left = halfPeriod + (left - halfPeriod) := by omega
          calc
            spell ((value, halfPeriod) :: runsFrom halfPeriod (-value) fuel (left - halfPeriod))
              = List.replicate halfPeriod value ++
                  (List.range (left - halfPeriod)).map (sampleFrom halfPeriod (-value)) := by
                rw [spell_cons, hrest]
            _ = (List.range (halfPeriod + (left - halfPeriod))).map
                  (sampleFrom halfPeriod value) := by
                rw [List.range_add, List.map_append, List.map_map,
                  map_sampleFrom (Nat.le_refl halfPeriod)]
                refine congrArg _ (List.map_congr_left fun k _ => ?_)
                exact (sampleFrom_add h value k).symm
            _ = (List.range left).map (sampleFrom halfPeriod value) := by rw [← hsplit]

end Samples

/-- A tone is a square wave. -/
structure IsSquare (t : Tone) : Prop where
  /-- Its runs are its samples, one for each place. -/
  spelled : spell t.runs = (List.range t.samples).map t.sample
  /-- It begins on the upper side and stays there for half a period. -/
  begins : ∀ k, k < t.halfPeriod → t.sample k = amplitude
  /-- Half a period later it is on the other side. -/
  turns : ∀ k, t.sample (t.halfPeriod + k) = -t.sample k

/-- **A tone that changes sides at all is a square wave.** -/
theorem isSquare {t : Tone} (h : 0 < t.halfPeriod) : t.IsSquare where
  spelled := spell_runsFrom h (Nat.le_refl t.samples) amplitude
  begins := fun k hk => sampleFrom_of_lt hk amplitude
  turns := by
    intro k
    show sampleFrom t.halfPeriod amplitude (t.halfPeriod + k) = -sampleFrom t.halfPeriod amplitude k
    rw [sampleFrom_add h, sampleFrom_neg]

/-- The last run is what is left of the samples. -/
example : Tone.runs ⟨5, 2⟩ = [(32767, 2), (-32767, 2), (32767, 1)] := rfl

end Tone

namespace Buzzer

variable {b : Buzzer}

/-- A tone that was calculated has a sample, and room to change sides. -/
theorem render_positive {tone : Tone} (h : b.render = .ok tone) :
    0 < tone.samples ∧ 0 < tone.halfPeriod := by
  simp only [render, bind_eq_ok] at h
  obtain ⟨length, _, samples, _, twice, _, half, _, halfPeriod, _, h⟩ := h
  split at h
  · exact absurd h (by simp)
  · split at h
    · exact absurd h (by simp)
    · obtain rfl := Except.ok.inj h
      exact ⟨by simp only; omega, by simp only; omega⟩

/-- A set-up makes the tone that is calculated. -/
theorem render_of_setUp {mixer : Mixer} {tone : Tone} (h : b.setUp = (mixer, .ok tone)) :
    b.render = .ok tone := by
  unfold setUp at h
  split at h
  · exact absurd h (by simp)
  · split at h
    · exact absurd h (by simp)
    · rename_i rendered hrender
      split at h
      · exact absurd h (by simp)
      · obtain rfl := Except.ok.inj (Prod.mk.inj h).2
        exact hrender

theorem handle_render (b : Buzzer) (event : BuzzerEvent) : (b.handle event).render = b.render := by
  obtain ⟨_, _, _, _, hafter⟩ := b.handle_keeps_wanted event
  rw [hafter]
  rfl

/-- The tone at hand is the one that is wanted, and no other was played. -/
structure PlaysWanted (b : Buzzer) : Prop where
  tone : ∀ tone, b.tone = some tone → b.render = .ok tone
  played : ∀ samples, .play samples ∈ b.mixer.calls →
    ∃ tone, b.render = .ok tone ∧ tone.samples = samples

theorem PlaysWanted.emit_tone (h : b.PlaysWanted) {tone : Tone}
    (hafter : (b.handle .emit).tone = some tone) : b.render = .ok tone := by
  rcases b.emit_cases with ⟨_, he⟩ | ⟨_, rendered, hsome, he⟩ | ⟨_, _, mixer, why, _, he⟩ |
      ⟨_, _, mixer, rendered, hs, he⟩
  · rw [handle, he] at hafter
    exact h.tone tone hafter
  · rw [handle, he, (sound_tone _ rendered).1] at hafter
    exact h.tone tone hafter
  · rw [handle, he] at hafter
    exact h.tone tone hafter
  · rw [handle, he, (sound_tone _ rendered).1] at hafter
    obtain rfl := Option.some.inj hafter
    exact render_of_setUp hs

/-- A request plays the tone that is at hand after it. -/
theorem mem_starts {samples : Nat} (h : .play samples ∈ b.starts) :
    ∃ tone, (b.handle .emit).tone = some tone ∧ tone.samples = samples := by
  unfold starts at h
  split at h
  · split at h
    · rename_i tone htone
      exact ⟨tone, htone, (MixerCall.play.inj (List.mem_singleton.mp h)).symm⟩
    · exact absurd h List.not_mem_nil
  · exact absurd h List.not_mem_nil

/-- **No event plays anything else.** -/
theorem PlaysWanted.handle (h : b.PlaysWanted) (event : BuzzerEvent) :
    (b.handle event).PlaysWanted := by
  have hrender := b.handle_render event
  by_cases hemit : event = .emit
  · subst hemit
    refine ⟨fun tone htone => hrender.trans (h.emit_tone htone), fun samples hmem => ?_⟩
    obtain ⟨calls, htells⟩ := b.emit_tells
    rw [hrender]
    rw [htells.told] at hmem
    rcases List.mem_append.mp hmem with hstarts | hearlier
    · obtain ⟨tone, htone, hsamples⟩ := mem_starts hstarts
      exact ⟨tone, h.emit_tone htone, hsamples⟩
    · rcases List.mem_append.mp hearlier with hprepares | hbefore
      · exact absurd hprepares (htells.silent samples)
      · exact h.played samples hbefore
  · obtain ⟨mixer, hafter⟩ := handle_of_ne (b := b) hemit
    obtain ⟨calls, hcalls, hwhich⟩ := tells_of_ne (b := b) hemit
    refine ⟨fun tone htone => hrender.trans (h.tone tone ?_), fun samples hmem => ?_⟩
    · rw [hafter] at htone
      exact htone
    · rw [hrender]
      rw [hcalls] at hmem
      rcases hwhich with rfl | rfl
      · exact h.played samples hmem
      · obtain hstop | hbefore := List.mem_cons.mp hmem
        · exact absurd hstop (by simp)
        · exact h.played samples hbefore

theorem New.playsWanted (h : b.New) : b.PlaysWanted := by
  refine ⟨fun tone htone => ?_, fun samples hmem => ?_⟩
  · rw [h.tone] at htone
    exact absurd htone (by simp)
  · rw [h.calls] at hmem
    exact absurd hmem List.not_mem_nil

/--
**What a buzzer plays is the square wave that was wanted**, after any events.

The mixer is told how many samples there are, and so many are spelled out by the runs.
-/
theorem played_isSquare {start : Buzzer} (h : start.New) (events : List BuzzerEvent) {samples : Nat}
    (hplay : .play samples ∈ (start.after events).mixer.calls) :
    ∃ tone, start.render = .ok tone ∧ tone.IsSquare ∧
      (Tone.spell tone.runs).length = samples ∧ 0 < samples := by
  have hkept : (start.after events).render = start.render :=
    after_keeps (P := fun b => b.render = start.render)
      (fun b event hb => (b.handle_render event).trans hb) events rfl
  have hwanted : (start.after events).PlaysWanted :=
    after_keeps (fun _ event hb => hb.handle event) events h.playsWanted
  obtain ⟨tone, hrender, hsamples⟩ := hwanted.played samples hplay
  rw [hkept] at hrender
  obtain ⟨hpositive, hturns⟩ := render_positive hrender
  have hsquare := Tone.isSquare hturns
  refine ⟨tone, hrender, hsquare, ?_, hsamples ▸ hpositive⟩
  rw [hsquare.spelled, List.length_map, List.length_range, hsamples]

end Buzzer

end ChipEight
