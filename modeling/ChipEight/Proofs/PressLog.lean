import ChipEight.Proofs.Presses
import Mathlib.Data.List.Induction

/-!
# What becomes of every press

Whoever presses keys and whoever asks for them share one queue, and the queue forgets. So the order
of the answers and the reasons for a loss are told against a log that forgets nothing and is read
off the calls alone: which keys are down is what the calls said last of each, and a press is logged
where a call puts a key down that was up.

The queue is always the end of the log (`FollowsLog`). Nothing is ever put anywhere but behind the
log's last press, and nothing leaves the queue but its first. So how many presses are no longer in
the queue says which press comes next: `gone` is a place in the log that never goes back. A press is
handed out when `gone` is its place, and lost when `gone` moves past it for another reason.
-/

namespace ChipEight

/-- What is asked of a keypad. -/
inductive KeypadCall
  | move (event : KeyEvent)
  | clear
  | discard
  | next
  | wait
  deriving DecidableEq, Repr

/-! ## The log, read off the calls -/

namespace KeypadCall

/-- What a call says of a key: that it goes down, that it goes up, or nothing. -/
def puts (key : Key) : KeypadCall → Option Bool
  | .move (.press pressed) => if pressed = key.val then some true else none
  | .move (.release released) => if released = key.val then some false else none
  | .move (.setKeys held) => some (held.contains (key.val : Int))
  | .clear => some false
  | .discard | .next | .wait => none

/-- A key is down after calls if the last of them that says something of it puts it down. -/
def heldAfter (calls : List KeypadCall) (key : Key) : Bool :=
  (calls.filterMap (puts key)).getLast? == some true

/-- The keys that were up after earlier calls and that a call puts down, by their numbers. -/
def strikes (earlier : List KeypadCall) (call : KeypadCall) : List Key :=
  Keypad.keys.filter fun key => !heldAfter earlier key && call.puts key == some true

/-- What calls yield one after the other, each in the light of those before it. -/
def gather {α : Type} (yield : List KeypadCall → KeypadCall → List α)
    (earlier : List KeypadCall) : List KeypadCall → List α
  | [] => []
  | call :: rest => yield earlier call ++ gather yield (earlier ++ [call]) rest

/-- All keys that went down, in the order in which they did. -/
def log (calls : List KeypadCall) : List Key := gather strikes [] calls

theorem gather_snoc {α : Type} (yield : List KeypadCall → KeypadCall → List α)
    (earlier calls : List KeypadCall) (call : KeypadCall) :
    gather yield earlier (calls ++ [call]) =
      gather yield earlier calls ++ yield (earlier ++ calls) call := by
  induction calls generalizing earlier with
  | nil => simp only [List.nil_append, gather, List.append_nil]
  | cons first rest ih =>
      rw [List.cons_append, gather, gather, ih, List.append_assoc, List.append_assoc]
      rfl

theorem log_snoc (calls : List KeypadCall) (call : KeypadCall) :
    log (calls ++ [call]) = log calls ++ strikes calls call :=
  gather_snoc strikes [] calls call

/-- A call that says nothing of a key leaves it to the calls before. -/
theorem heldAfter_snoc (calls : List KeypadCall) (call : KeypadCall) (key : Key) :
    heldAfter (calls ++ [call]) key = (call.puts key).getD (heldAfter calls key) := by
  unfold heldAfter
  rw [List.filterMap_append, List.filterMap_cons, List.filterMap_nil]
  cases call.puts key with
  | none => rw [List.append_nil]; rfl
  | some down =>
      rw [List.getLast?_concat, Option.getD_some]
      cases down <;> rfl

/-- Who puts no key down logs nothing. -/
theorem strikes_eq_nil {earlier : List KeypadCall} {call : KeypadCall}
    (h : ∀ key, call.puts key ≠ some true) : strikes earlier call = [] := by
  refine List.filter_eq_nil_iff.mpr fun key _ => ?_
  simp [h key]

/-- A call logs no key twice, so it logs sixteen at most. -/
theorem strikes_length (earlier : List KeypadCall) (call : KeypadCall) :
    (strikes earlier call).length ≤ pressLimit :=
  List.length_filter_le _ _

end KeypadCall

/-! ## The keypad that is called -/

namespace Keypad

open KeypadCall

/-- The answer to a call, if there is one, and the keypad after it. -/
def serve (k : Keypad) : KeypadCall → Option Key × Keypad
  | .move event => (none, k.handle event)
  | .clear => (none, k.clear)
  | .discard => (none, k.discardPresses)
  | .next => k.nextPress
  | .wait => k.takePress

/-- A new keypad after calls. -/
def served (calls : List KeypadCall) : Keypad := calls.foldl (fun k call => (k.serve call).2) {}

/-- The keys that calls are answered with, in order. -/
def answers (k : Keypad) : List KeypadCall → List Key
  | [] => []
  | call :: rest => (k.serve call).1.toList ++ (k.serve call).2.answers rest

theorem served_snoc (calls : List KeypadCall) (call : KeypadCall) :
    served (calls ++ [call]) = ((served calls).serve call).2 := by
  rw [served, List.foldl_append]
  rfl

theorem answers_snoc (k : Keypad) (calls : List KeypadCall) (call : KeypadCall) :
    k.answers (calls ++ [call]) = k.answers calls ++
      ((calls.foldl (fun k call => (k.serve call).2) k).serve call).1.toList := by
  induction calls generalizing k with
  | nil => simp only [List.nil_append, answers, List.append_nil, List.foldl_nil]
  | cons first rest ih => rw [List.cons_append, answers, answers, ih, List.append_assoc]; rfl

/-- To wait no longer than to look is to ask for the next press. -/
theorem takePress_eq (k : Keypad) : k.takePress = k.nextPress := by
  unfold takePress nextPress
  cases k.presses <;> rfl

/-- Both ways to ask hand out the first of the presses that wait. -/
theorem serve_take {k : Keypad} {call : KeypadCall} (h : call = .next ∨ call = .wait) :
    k.serve call = (k.presses.head?, { k with presses := k.presses.tail }) := by
  have hnext : k.nextPress = (k.presses.head?, { k with presses := k.presses.tail }) := by
    obtain ⟨down, presses⟩ := k
    cases presses <;> rfl
  rcases h with rfl | rfl
  · exact hnext
  · exact k.takePress_eq.trans hnext

theorem ofInt_cases (number : Int) :
    (∃ key : Key, Key.ofInt number = .ok key ∧ number = key.val) ∨
      (Key.ofInt number = .error .keyOutOfRange ∧ ∀ key : Key, number ≠ key.val) := by
  unfold Key.ofInt
  by_cases h : 0 ≤ number ∧ number < 16
  · refine Or.inl ⟨_, dif_pos h, ?_⟩
    simp only
    omega
  · refine Or.inr ⟨dif_neg h, fun key hkey => h ?_⟩
    omega

/-- **A key is where the call puts it, and stays as it was if the call says nothing of it.** -/
theorem isDown_serve (k : Keypad) (call : KeypadCall) (key : Key) :
    (k.serve call).2.isDown key = (call.puts key).getD (k.isDown key) := by
  -- a key and another are told apart by their numbers
  have hsame : ∀ other : Key, ((other.val : Int) = key.val) = (other = key) := by
    intro other
    rw [Int.ofNat_inj, Fin.ext_iff]
  cases call with
  | move event =>
      cases event with
      | press pressed =>
          rcases ofInt_cases pressed with ⟨other, hother, rfl⟩ | ⟨hnone, hne⟩
          · simp only [serve, handle, hother, puts, isDown_press, hsame]
            split <;> rfl
          · simp only [serve, handle, hnone, puts, if_neg (hne key), Option.getD_none]
      | release released =>
          rcases ofInt_cases released with ⟨other, hother, rfl⟩ | ⟨hnone, hne⟩
          · simp only [serve, handle, hother, puts, isDown_release, hsame]
            split <;> rfl
          · simp only [serve, handle, hnone, puts, if_neg (hne key), Option.getD_none]
      | setKeys held => exact k.isDown_setKeys held key
  | clear => simp [serve, clear, isDown, puts]
  | discard => rfl
  | next => rw [serve_take (Or.inl rfl)]; rfl
  | wait => rw [serve_take (Or.inr rfl)]; rfl

/-! ## The queue is the end of the log -/

/-- A keypad after calls is where their log has it. -/
structure FollowsLog (calls : List KeypadCall) : Prop where
  /-- The presses that wait are the last of the log. -/
  queue : (served calls).presses <:+ log calls
  /-- No more wait than there is room for. -/
  room : (served calls).presses.length ≤ pressLimit
  /-- A key is down if the calls put it down last. -/
  held : ∀ key, (served calls).isDown key = heldAfter calls key

variable {calls : List KeypadCall}

/-- The presses that count by the keys are those that are logged. -/
theorem struck_serve (h : FollowsLog calls) (call : KeypadCall) :
    (served calls).struck ((served calls).serve call).2 = strikes calls call := by
  refine List.filter_congr fun key _ => ?_
  rw [isDown_serve, h.held]
  -- only for a key that was up does it matter what the call says
  cases heldAfter calls key with
  | true => rfl
  | false =>
      cases call.puts key with
      | none => rfl
      | some down => cases down <;> rfl

/-- **The three ends of a call**: it takes the first press that waits, it forgets all that wait, or
what it logs comes behind them. -/
theorem serve_cases (h : FollowsLog calls) (call : KeypadCall) :
    (∃ key, (served calls).presses = key :: (served (calls ++ [call])).presses ∧
      ((served calls).serve call).1 = some key ∧ strikes calls call = []) ∨
    ((call = .clear ∨ call = .discard) ∧ (served (calls ++ [call])).presses = [] ∧
      ((served calls).serve call).1 = none ∧ strikes calls call = []) ∨
    ((served (calls ++ [call])).presses =
        newest ((served calls).presses ++ strikes calls call) ∧
      ((served calls).serve call).1 = none) := by
  rw [served_snoc]
  have htake : (call = .next ∨ call = .wait) → strikes calls call = [] →
      (∃ key, (served calls).presses = key :: ((served calls).serve call).2.presses ∧
        ((served calls).serve call).1 = some key ∧ strikes calls call = []) ∨
      (((served calls).serve call).2.presses =
          newest ((served calls).presses ++ strikes calls call) ∧
        ((served calls).serve call).1 = none) := by
    intro hcall hnil
    rw [serve_take hcall, hnil, List.append_nil]
    cases hqueue : (served calls).presses with
    | nil => exact Or.inr ⟨rfl, rfl⟩
    | cons key rest => exact Or.inl ⟨key, rfl, rfl, rfl⟩
  cases call with
  | move event =>
      refine Or.inr (Or.inr ⟨?_, rfl⟩)
      rw [← struck_serve h]
      exact handle_presses h.room event
  | clear =>
      exact Or.inr (Or.inl ⟨Or.inl rfl, rfl, rfl, strikes_eq_nil fun key => by simp [puts]⟩)
  | discard =>
      exact Or.inr (Or.inl ⟨Or.inr rfl, rfl, rfl, strikes_eq_nil fun key => by simp [puts]⟩)
  | next =>
      rcases htake (Or.inl rfl) (strikes_eq_nil fun key => by simp [puts]) with htaken | hnone
      · exact Or.inl htaken
      · exact Or.inr (Or.inr hnone)
  | wait =>
      rcases htake (Or.inr rfl) (strikes_eq_nil fun key => by simp [puts]) with htaken | hnone
      · exact Or.inl htaken
      · exact Or.inr (Or.inr hnone)

theorem newest_suffix (presses : List Key) : newest presses <:+ presses := List.drop_suffix _ _

theorem FollowsLog.snoc (h : FollowsLog calls) (call : KeypadCall) :
    FollowsLog (calls ++ [call]) where
  queue := by
    rw [log_snoc]
    rcases serve_cases h call with ⟨key, hqueue, _, hnil⟩ | ⟨_, hqueue, _⟩ | ⟨hqueue, _⟩
    · rw [hnil, List.append_nil]
      exact (hqueue ▸ List.suffix_cons key _).trans h.queue
    · rw [hqueue]
      exact List.nil_suffix
    · rw [hqueue]
      obtain ⟨earlier, hlog⟩ := h.queue
      refine (newest_suffix _).trans ⟨earlier, ?_⟩
      rw [← List.append_assoc, hlog]
  room := by
    have hroom := h.room
    rcases serve_cases h call with ⟨key, hqueue, _⟩ | ⟨_, hqueue, _⟩ | ⟨hqueue, _⟩
    · rw [hqueue, List.length_cons] at hroom
      omega
    · rw [hqueue]
      exact Nat.zero_le _
    · rw [hqueue, newest_length]
      exact Nat.min_le_right _ _
  held key := by rw [served_snoc, isDown_serve, heldAfter_snoc, h.held]

/-- **After any calls the keypad is where their log has it.** -/
theorem followsLog (calls : List KeypadCall) : FollowsLog calls := by
  induction calls using List.reverseRecOn with
  | nil =>
      refine ⟨List.suffix_rfl, Nat.zero_le _, fun key => ?_⟩
      simp [served, isDown, heldAfter]
  | append_singleton earlier call ih => exact ih.snoc call

/-! ## What becomes of a press -/

/-- How many presses of the log no longer wait: the place of the first one that does. -/
def gone (calls : List KeypadCall) : Nat := (log calls).length - (served calls).presses.length

/-- The press at a place of the log waits. -/
def Waiting (calls : List KeypadCall) (place : Nat) : Prop :=
  gone calls ≤ place ∧ place < (log calls).length

/-- The answers to calls, each with the place that its press has in the log. -/
def deliveries (calls : List KeypadCall) : List (Nat × Key) :=
  gather (fun earlier call =>
    ((served earlier).serve call).1.toList.map fun key => (gone earlier, key)) [] calls

/-- The press at a place was lost: while it waited somebody had all that wait forgotten, or by then
sixteen later ones had been logged. -/
def Lost (calls : List KeypadCall) (place : Nat) : Prop :=
  ∃ earlier call later, calls = earlier ++ call :: later ∧ Waiting earlier place ∧
    (call = .clear ∨ call = .discard ∨
      16 ≤ ((log (earlier ++ [call])).drop (place + 1)).length)

theorem deliveries_snoc (calls : List KeypadCall) (call : KeypadCall) :
    deliveries (calls ++ [call]) = deliveries calls ++
      ((served calls).serve call).1.toList.map fun key => (gone calls, key) :=
  gather_snoc _ [] calls call

theorem Lost.snoc {place : Nat} (h : Lost calls place) (call : KeypadCall) :
    Lost (calls ++ [call]) place := by
  obtain ⟨earlier, cause, later, hcalls, hlost⟩ := h
  refine ⟨earlier, cause, later ++ [call], ?_, hlost⟩
  rw [hcalls, List.append_assoc]
  rfl

/-- The presses that wait are those of the log from `gone` on. -/
theorem presses_eq_drop (calls : List KeypadCall) :
    (served calls).presses = (log calls).drop (gone calls) :=
  (List.suffix_iff_eq_drop.mp (followsLog calls).queue)

theorem gone_add_length (calls : List KeypadCall) :
    gone calls + (served calls).presses.length = (log calls).length := by
  have hle := (followsLog calls).queue.length_le
  unfold gone
  omega

/-- What a call comes to, told by places: it hands out the press at `gone` and moves on by one, or
it hands out nothing and every press that it moves past was lost. -/
theorem gone_cases (calls : List KeypadCall) (call : KeypadCall) :
    (∃ key, ((served calls).serve call).1 = some key ∧ (log calls)[gone calls]? = some key ∧
      gone (calls ++ [call]) = gone calls + 1 ∧ log (calls ++ [call]) = log calls) ∨
    (((served calls).serve call).1 = none ∧ gone calls ≤ gone (calls ++ [call]) ∧
      gone (calls ++ [call]) ≤ (log calls).length ∧
      ∀ place, Waiting calls place → place < gone (calls ++ [call]) →
        Lost (calls ++ [call]) place) := by
  have hbefore := gone_add_length calls
  have hafter := gone_add_length (calls ++ [call])
  have hlog := congrArg List.length (log_snoc calls call)
  rw [List.length_append] at hlog
  rcases serve_cases (followsLog calls) call with ⟨key, hqueue, hanswer, hnil⟩ |
      ⟨hcall, hqueue, hanswer, hnil⟩ | ⟨hqueue, hanswer⟩
  · refine Or.inl ⟨key, hanswer, ?_, ?_, ?_⟩
    · rw [← List.head?_drop, ← presses_eq_drop, hqueue]
      rfl
    · rw [hqueue, List.length_cons] at hbefore
      rw [hnil, List.length_nil] at hlog
      omega
    · rw [log_snoc, hnil, List.append_nil]
  · rw [hqueue, List.length_nil] at hafter
    rw [hnil, List.length_nil] at hlog
    refine Or.inr ⟨hanswer, by omega, by omega, fun place hwaits _ => ?_⟩
    refine ⟨calls, call, [], rfl, hwaits, ?_⟩
    rcases hcall with hclear | hdiscard
    · exact Or.inl hclear
    · exact Or.inr (Or.inl hdiscard)
  · -- what is logged now is among the newest, so only earlier presses can be pushed out
    have hroom := (followsLog calls).room
    have hstrikes := strikes_length calls call
    rw [hqueue, newest_length, List.length_append] at hafter
    simp only [pressLimit] at hroom hstrikes hafter
    refine Or.inr ⟨hanswer, by omega, by omega, fun place hwaits hpast => ?_⟩
    refine ⟨calls, call, [], rfl, hwaits, Or.inr (Or.inr ?_)⟩
    have hfrom := hwaits.1
    rw [List.length_drop]
    omega

/-- What is known of the deliveries so far and of every press that was logged. -/
structure Accounted (calls : List KeypadCall) : Prop where
  /-- What was handed out does not wait any more. -/
  past : ∀ delivery ∈ deliveries calls, delivery.1 < gone calls
  /-- Each was handed out as it was logged. -/
  logged : ∀ delivery ∈ deliveries calls, (log calls)[delivery.1]? = some delivery.2
  /-- They were handed out in the order of the log, none of them twice. -/
  ascending : (deliveries calls).Pairwise fun delivery later => delivery.1 < later.1
  /-- Every press waits, was handed out, or was lost. -/
  fate : ∀ place, place < (log calls).length →
    Waiting calls place ∨ (∃ key, (place, key) ∈ deliveries calls) ∨ Lost calls place

/-- What is logged stays where it is. -/
theorem log_kept {place : Nat} {key : Key} (h : (log calls)[place]? = some key)
    (call : KeypadCall) : (log (calls ++ [call]))[place]? = some key := by
  rw [log_snoc, List.getElem?_append_left (List.getElem?_eq_some_iff.mp h).1]
  exact h

/-- The press at `gone` is handed out. -/
theorem Accounted.handOut (h : Accounted calls) {call : KeypadCall} {key : Key}
    (hanswer : ((served calls).serve call).1 = some key)
    (hkey : (log calls)[gone calls]? = some key)
    (hgone : gone (calls ++ [call]) = gone calls + 1) (hsame : log (calls ++ [call]) = log calls) :
    Accounted (calls ++ [call]) := by
  have hdeliveries : deliveries (calls ++ [call]) = deliveries calls ++ [(gone calls, key)] := by
    rw [deliveries_snoc, hanswer]
    rfl
  have hmem : ∀ delivery ∈ deliveries (calls ++ [call]),
      delivery ∈ deliveries calls ∨ delivery = (gone calls, key) := by
    intro delivery hdelivery
    rw [hdeliveries] at hdelivery
    rcases List.mem_append.mp hdelivery with hold | hlast
    · exact Or.inl hold
    · exact Or.inr (List.mem_singleton.mp hlast)
  refine ⟨?_, ?_, ?_, ?_⟩
  · intro delivery hdelivery
    rcases hmem delivery hdelivery with hold | rfl
    · exact hgone ▸ Nat.lt_succ_of_lt (h.past delivery hold)
    · exact hgone ▸ Nat.lt_succ_self _
  · intro delivery hdelivery
    rcases hmem delivery hdelivery with hold | rfl
    · exact log_kept (h.logged delivery hold) call
    · exact log_kept hkey call
  · -- what was handed out before lies before `gone`
    rw [hdeliveries, List.pairwise_append]
    refine ⟨h.ascending, List.pairwise_singleton _ _, fun delivery hold last hlast => ?_⟩
    rw [List.mem_singleton.mp hlast]
    exact h.past delivery hold
  · -- of those that waited the first was handed out, and the others still wait
    intro place hplace
    rw [hsame] at hplace
    rcases h.fate place hplace with ⟨hfrom, _⟩ | ⟨key', hdelivered⟩ | hlost
    · by_cases hfirst : place = gone calls
      · refine Or.inr (Or.inl ⟨key, ?_⟩)
        rw [hdeliveries, hfirst]
        exact List.mem_append_right _ List.mem_cons_self
      · exact Or.inl ⟨by omega, by rw [hsame]; exact hplace⟩
    · refine Or.inr (Or.inl ⟨key', ?_⟩)
      rw [hdeliveries]
      exact List.mem_append_left _ hdelivered
    · exact Or.inr (Or.inr (hlost.snoc call))

/-- Nothing is handed out. -/
theorem Accounted.moveOn (h : Accounted calls) {call : KeypadCall}
    (hanswer : ((served calls).serve call).1 = none) (hle : gone calls ≤ gone (calls ++ [call]))
    (hnew : gone (calls ++ [call]) ≤ (log calls).length)
    (hpassed : ∀ place, Waiting calls place → place < gone (calls ++ [call]) →
      Lost (calls ++ [call]) place) :
    Accounted (calls ++ [call]) := by
  have hdeliveries : deliveries (calls ++ [call]) = deliveries calls := by
    rw [deliveries_snoc, hanswer]
    exact List.append_nil _
  refine ⟨?_, ?_, ?_, ?_⟩
  · intro delivery hdelivery
    rw [hdeliveries] at hdelivery
    exact Nat.lt_of_lt_of_le (h.past delivery hdelivery) hle
  · intro delivery hdelivery
    rw [hdeliveries] at hdelivery
    exact log_kept (h.logged delivery hdelivery) call
  · rw [hdeliveries]
    exact h.ascending
  · intro place hplace
    by_cases hold : place < (log calls).length
    · rw [hdeliveries]
      rcases h.fate place hold with hwaits | hdelivered | hlost
      · by_cases hpast : place < gone (calls ++ [call])
        · exact Or.inr (Or.inr (hpassed place hwaits hpast))
        · exact Or.inl ⟨by omega, hplace⟩
      · exact Or.inr (Or.inl hdelivered)
      · exact Or.inr (Or.inr (hlost.snoc call))
    · -- it has just been logged
      exact Or.inl ⟨by omega, hplace⟩

/-- **After any calls every press is accounted for.** -/
theorem accounted (calls : List KeypadCall) : Accounted calls := by
  induction calls using List.reverseRecOn with
  | nil =>
      have hnone : deliveries [] = [] := rfl
      refine ⟨by simp [hnone], by simp [hnone], .nil, fun place hplace => ?_⟩
      exact absurd hplace (Nat.not_lt_zero place)
  | append_singleton earlier call ih =>
      rcases gone_cases earlier call with ⟨key, hanswer, hkey, hgone, hsame⟩ |
          ⟨hanswer, hle, hnew, hpassed⟩
      · exact ih.handOut hanswer hkey hgone hsame
      · exact ih.moveOn hanswer hle hnew hpassed

theorem deliveries_answers (calls : List KeypadCall) :
    (deliveries calls).map Prod.snd = answers {} calls := by
  induction calls using List.reverseRecOn with
  | nil => rfl
  | append_singleton earlier call ih =>
      have hkeys : (((served earlier).serve call).1.toList.map fun key =>
          (gone earlier, key)).map Prod.snd = ((served earlier).serve call).1.toList := by
        rw [List.map_map]
        exact List.map_id _
      rw [deliveries_snoc, List.map_append, ih, answers_snoc, hkeys]
      rfl

/-! ## The main statement -/

/--
**The queue keeps to the log of presses.**

After any calls to a new keypad the presses that wait are the last of the log, sixteen at most, and
the keys that are down are those that the calls put down last. Both ways to ask hand out the first
press that waits. The answers have ascending places in the log, so none is given twice and none out
of order; and a press that neither waits nor was an answer was lost while it waited, to a call that
forgets all presses or to sixteen later ones.
-/
theorem queue_follows_log (calls : List KeypadCall) :
    let k := served calls
    k.presses <:+ log calls ∧ k.presses.length ≤ 16 ∧
    (∀ key, k.isDown key = heldAfter calls key) ∧
    (∀ call, call = .next ∨ call = .wait →
      k.serve call = (k.presses.head?, { k with presses := k.presses.tail })) ∧
    (deliveries calls).map Prod.snd = answers {} calls ∧
    (∀ delivery ∈ deliveries calls, (log calls)[delivery.1]? = some delivery.2) ∧
    ((deliveries calls).Pairwise fun delivery later => delivery.1 < later.1) ∧
    ∀ place, place < (log calls).length →
      Waiting calls place ∨ (∃ key, (place, key) ∈ deliveries calls) ∨ Lost calls place := by
  intro k
  have hfollows := followsLog calls
  have haccounted := accounted calls
  exact ⟨hfollows.queue, hfollows.room, hfollows.held, fun _ => serve_take,
    deliveries_answers calls, haccounted.logged, haccounted.ascending, haccounted.fate⟩

/-- All keys go down at once and one of them again, which pushes the press of 0 out. The press of 1
is answered and the others are forgotten; then a key that is held down is reported again, which
does not count, and goes down once more, which does. -/
theorem queue_follows_log_overflow :
    let calls : List KeypadCall :=
      [.move (.setKeys [15, 14, 13, 12, 11, 10, 9, 8, 7, 6, 5, 4, 3, 2, 1, 0]), .move (.release 5),
        .move (.press 5), .next, .discard, .move (.press 3), .wait, .move (.release 3),
        .move (.press 3), .wait]
    log calls = keys ++ [5, 3] ∧ deliveries calls = [(1, 1), (17, 3)] ∧
      answers {} calls = [1, 3] ∧ (∀ key, (served calls).isDown key = heldAfter calls key) ∧
      Lost calls 0 ∧ Lost calls 16 := by
  intro calls
  obtain ⟨_, _, hheld, _, hanswers, _, _, hfate⟩ := queue_follows_log calls
  have hlog : log calls = keys ++ [5, 3] := by decide +kernel
  have hdeliveries : deliveries calls = [(1, 1), (17, 3)] := by decide +kernel
  have hgone : gone calls = 18 := by decide +kernel
  have hlost : ∀ place, place < 18 → place ≠ 1 → place ≠ 17 → Lost calls place := by
    intro place hplace hfirst hlast
    rcases hfate place (by rw [hlog]; exact hplace) with hwaits | ⟨key, hdelivered⟩ | hlost
    · have hfrom := hwaits.1
      omega
    · rw [hdeliveries] at hdelivered
      simp [hfirst, hlast] at hdelivered
    · exact hlost
  rw [hdeliveries] at hanswers
  exact ⟨hlog, hdeliveries, hanswers.symm, hheld, hlost 0 (by decide) (by decide) (by decide),
    hlost 16 (by decide) (by decide) (by decide)⟩

end Keypad

end ChipEight
