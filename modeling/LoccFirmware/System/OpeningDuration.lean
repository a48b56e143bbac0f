import LoccFirmware.Automata.Promptness
import LoccFirmware.System.Charging

/-!
# How Long an Opening Takes

The timer says when an action may come at the earliest; when it does come depends on how
often the main loop looks.  If it looks every `gap` ticks at least, an accepted command
opens the lock at most 5059 ticks and three gaps later, the cylinder keeps its supply for
15000 to 15000 + 2·`gap` ticks after that, and the whole opening is over 25059 ticks and
seven gaps after its command.
-/

namespace LoccFirmware.System

open LoccFirmware.Automata LoccFirmware.Lock

/-! ## Frames that are never far apart -/

/-- Consecutive frames check the timer at most `gap` ticks apart. -/
def FramesWithin (events : List Event) (gap : ℕ) : Prop :=
  Within (events.map Event.window) (IsFrame events) gap

/-- The actions of the opening that the command of frame `a` started, in frames `w`, `o`,
`d` and `u`, with nothing performed between them; the supply of the cylinder is off from
the power-down to the power-up only. -/
structure OpeningAt (events : List Event) (a w o d u : ℕ) : Prop where
  begins : a ≤ w
  quiet : ∀ l, a ≤ l → l < w → performedAt events l = none
  wakes : performedAt events w = some .wakeupLocc
  next_opens : Next (performedAt events) w o
  opens : performedAt events o = some .openLocc
  next_powersDown : Next (performedAt events) o d
  powersDown : performedAt events d = some .powerdownLocc
  next_powersUp : Next (performedAt events) d u
  powersUp : performedAt events u = some .powerupLocc
  powered : ∀ k, a ≤ k → k ≤ d → PoweredAt events k
  unpowered : ∀ k, d < k → k ≤ u → ¬ PoweredAt events k

section Prompt

variable {events : List Event} {gap a i k : ℕ} {c : StepCase}

theorem framesWithin_iff :
    FramesWithin events gap ↔
      Within ((signals events).map Signal.toWindow) (Sequencer.PolledAt (signals events)) gap := by
  have hpolled : Sequencer.PolledAt (signals events) = IsFrame events :=
    funext fun j => propext (polled_signals events j)
  rw [FramesWithin, ← map_window_drives setup events, hpolled]
  rfl

theorem timerCheckAt_eq (j : ℕ) :
    timerCheckAt events j = checkAt ((signals events).map Signal.toWindow) j := by
  rw [timerCheckAt, ← map_window_drives setup events]
  rfl

/-- Within an opening, the next action comes in time. -/
theorem exists_next_in_time (hgap : FramesWithin events gap)
    (hc : performedAt events i = some c) (hne : c ≠ .powerupLocc) (c' : StepCase) (wait : ℕ)
    (hcase : nextCase c = c') (hwait : c.wait.toNat = wait) (hk : IsFrame events k)
    (hik : i < k) (htime : timerCheckAt events i + wait + gap ≤ timerCheckAt events k) :
    ∃ j, Next (performedAt events) i j ∧ j ≤ k ∧ performedAt events j = some c' ∧
      timerCheckAt events i + wait ≤ timerCheckAt events j ∧
      timerCheckAt events j ≤ timerCheckAt events i + wait + 2 * gap := by
  rw [framesWithin_iff] at hgap
  have hact := (performedAt_eq_some_iff events i c).mp hc
  have hbusy : phase c + 1 ≠ 0 := fun h => hne ((phase_succ_eq_zero_iff c).mp h)
  rw [← waits_phase] at hwait
  simp only [timerCheckAt_eq, ← hwait] at htime ⊢
  obtain ⟨j, hnext, hjk, hwaited, hlate⟩ := Sequencer.exists_next_prompt hgap hact hbusy
    ((polled_signals events k).mpr hk) hik htime
  have hnext := (next_performedAt_iff events i j).mpr hnext
  exact ⟨j, hnext, hjk, hcase ▸ performedAt_next hc hnext, hwaited, hlate⟩

/-- The wake-up comes with its command or in time after it. -/
theorem exists_wake_in_time (hgap : FramesWithin events gap) (hacc : AcceptedAt events a)
    (hk : IsFrame events k) (hak : a < k)
    (htime : timerCheckAt events a + 5000 ≤ timerCheckAt events k) :
    ∃ w, a ≤ w ∧ w ≤ k ∧ performedAt events w = some .wakeupLocc ∧
      (∀ l, a ≤ l → l < w → performedAt events l = none) ∧
      timerCheckAt events w ≤ timerCheckAt events a + 5000 + gap := by
  rw [framesWithin_iff] at hgap
  have hlast : ∀ b : Fin 5, b + 1 = 0 → waits b ≤ 5000 := by decide
  simp only [timerCheckAt_eq] at htime ⊢
  obtain ⟨w, haw, hwk, hwake, hquiet, hlate⟩ :=
    Sequencer.exists_first_prompt hgap hlast (by decide)
      ((acceptsAt_responses events a).mpr hacc) ((polled_signals events k).mpr hk) hak htime
  exact ⟨w, haw, hwk, (performedAt_eq_some_iff events w .wakeupLocc).mpr hwake,
    fun l hal hlw => (performedAt_eq_none_iff events l).mpr (hquiet l hal hlw), hlate⟩

end Prompt

/-! ## The supply during an opening -/

section Supply

variable {events : List Event} {a i j k w : ℕ} {c : StepCase}

/-- From an action to the next one of the same opening, the phase stands still. -/
theorem phase_between (hc : performedAt events i = some c) (hne : c ≠ .powerupLocc)
    (hnext : Next (performedAt events) i j) (hik : i < k) (hkj : k ≤ j) :
    ((Sequencer.machine waits).run Sequencer.start ((signals events).take k)).phase =
      phase c + 1 := by
  have hwait := Sequencer.waiting_of_quiet waits (signals events) (i := i) (j := k)
    ((performedAt_eq_some_iff events i c).mp hc) hik fun l hil hlk =>
      (performedAt_eq_none_iff events l).mp (hnext.2.2 l hil (Nat.lt_of_lt_of_le hlk hkj))
  exact hwait.busy fun h => hne ((phase_succ_eq_zero_iff c).mp h)

/-- In phase 4 the supply is off. -/
theorem not_poweredAt_of_phase
    (h : ((Sequencer.machine waits).run Sequencer.start ((signals events).take k)).phase = 4) :
    ¬ PoweredAt events k := by
  have hstep : (firmware.run setup (events.take k)).locc.currentLoccStep = 4 := by
    rw [(refines_run (events.take k)).step, signals_take, h]
    rfl
  obtain ⟨hportd, hddrd⟩ := (settled_run (events.take k)).port.off hstep
  rw [PoweredAt, Cylinder.Port.powered, hportd, hddrd]
  decide

/-- The supply is on from the command to its wake-up. -/
theorem poweredAt_of_awaiting (hwake : performedAt events w = some .wakeupLocc)
    (hquiet : ∀ l, a ≤ l → l < w → performedAt events l = none) (hak : a ≤ k) (hkw : k ≤ w) :
    PoweredAt events k := by
  rcases first_or_follows hwake with ⟨i, c, hnext, hi, hne, hc⟩ | ⟨-, -, hfirst⟩
  · cases c with
    | powerupLocc =>
      -- the last opening was over before the command
      have hia : i < a := by
        by_contra hle
        rw [hquiet i (Nat.le_of_not_lt hle) hnext.1] at hi
        cases hi
      exact poweredAt_of_powerup hi hnext (Nat.lt_of_lt_of_le hia hak) hkw
    | safeState => exact absurd rfl hne
    | wakeupLocc => cases hc
    | openLocc => cases hc
    | powerdownLocc => cases hc
  · exact poweredAt_of_fresh hfirst hkw

/-- It stays on through every action before the power-down. -/
theorem poweredAt_between (hc : performedAt events i = some c) (hne : c ≠ .powerupLocc)
    (hon : c ≠ .powerdownLocc) (hnext : Next (performedAt events) i j) (hik : i < k)
    (hkj : k ≤ j) : PoweredAt events k := by
  apply poweredAt_of_phase
  rw [phase_between hc hne hnext hik hkj]
  have htable : ∀ c : StepCase, c ≠ .powerdownLocc → phase c + 1 ≠ 4 := by
    intro c
    cases c <;> decide
  exact htable c hon

end Supply

/-! ## The theorem -/

/-- **An opening takes its time and no more**: if the frames of a run check the timer every
    `gap` ticks at least and the run goes on long enough, then every accepted command is
    followed by its wake-up, opening, power-down and power-up, each within the given number
    of ticks; the cylinder has its supply throughout but between the last two of them. -/
theorem opening_in_time (events : List Event) (gap a k : ℕ) (hgap : FramesWithin events gap)
    (hacc : AcceptedAt events a) (hk : IsFrame events k)
    (htime : timerCheckAt events a + 25059 + 6 * gap ≤ timerCheckAt events k) :
    ∃ w o d u, u ≤ k ∧ OpeningAt events a w o d u ∧
      timerCheckAt events w ≤ timerCheckAt events a + 5000 + gap ∧
      timerCheckAt events w + 59 ≤ timerCheckAt events o ∧
      timerCheckAt events o ≤ timerCheckAt events a + 5059 + 3 * gap ∧
      timerCheckAt events o + 15000 ≤ timerCheckAt events d ∧
      timerCheckAt events d ≤ timerCheckAt events o + 15000 + 2 * gap ∧
      timerCheckAt events d + 5000 ≤ timerCheckAt events u ∧
      timerCheckAt events u ≤ timerCheckAt events a + 25059 + 7 * gap := by
  -- a frame that checks later comes later
  have hbefore {i : ℕ} (h : timerCheckAt events i < timerCheckAt events k) : i < k := by
    by_contra hle
    exact absurd (checkAt_mono (Nat.le_of_not_lt hle)) (Nat.not_le_of_lt h)
  have hak : a < k := hbefore (by omega)
  obtain ⟨w, haw, -, hwake, hquiet, hw⟩ :=
    exists_wake_in_time hgap hacc hk hak (by omega)
  obtain ⟨o, hwo, -, hopen, ho₁, ho₂⟩ :=
    exists_next_in_time hgap hwake (by decide) .openLocc 59 rfl rfl hk
      (hbefore (by omega)) (by omega)
  obtain ⟨d, hod, -, hdown, hd₁, hd₂⟩ :=
    exists_next_in_time hgap hopen (by decide) .powerdownLocc 15000 rfl rfl hk
      (hbefore (by omega)) (by omega)
  obtain ⟨u, hdu, huk, hup, hu₁, hu₂⟩ :=
    exists_next_in_time hgap hdown (by decide) .powerupLocc 5000 rfl rfl hk
      (hbefore (by omega)) (by omega)
  refine ⟨w, o, d, u, huk, ?_, hw, by omega, by omega, by omega, by omega, by omega, by omega⟩
  refine ⟨haw, hquiet, hwake, hwo, hopen, hod, hdown, hdu, hup, fun l hal hld => ?_,
    fun l hdl hlu => not_poweredAt_of_phase (phase_between hdown (by decide) hdu hdl hlu)⟩
  by_cases hlw : l ≤ w
  · exact poweredAt_of_awaiting hwake hquiet hal hlw
  · by_cases hlo : l ≤ o
    · exact poweredAt_between hwake (by decide) (by decide) hwo (by omega) hlo
    · exact poweredAt_between hopen (by decide) (by decide) hod (by omega) hld

/-- A main loop that is busy all the time, with a bound on the ticks on either side of each
    timer check. -/
theorem framesWithin_of_frames {frames : List FrameInput} {before during : ℕ}
    (h : ∀ f ∈ frames, f.ticksBeforeCheck ≤ before ∧ f.ticksDuringStep ≤ during) :
    FramesWithin (frames.map .frame) (during + before) := by
  have hlength : ((frames.map Event.frame).map Event.window).length = frames.length := by simp
  apply within_of_forall
  · intro j hj
    rw [hlength] at hj
    exact ⟨frames[j], by rw [List.getElem?_map, List.getElem?_eq_getElem hj, Option.map_some]⟩
  · rintro j ⟨f, hf⟩
    have hj := (List.getElem?_eq_some_iff.mp hf).1
    rwa [List.length_map, ← hlength] at hj
  · intro w hw
    rw [List.map_map, List.mem_map] at hw
    obtain ⟨f, hf, rfl⟩ := hw
    exact h f hf

/-- A command, and the main loop looking every 15000 ticks from then on. -/
def slowFrames : List FrameInput :=
  { received := some '\n'.toUInt8, pind := 0xFF, pinc := 0, ticksBeforeCheck := 0,
    ticksDuringStep := 0, behind := fun _ => 0 } ::
  { received := some 'o'.toUInt8, pind := 0xFF, pinc := 0, ticksBeforeCheck := 0,
    ticksDuringStep := 0, behind := fun _ => 0 } ::
  List.replicate 8
    { received := none, pind := 0xFF, pinc := 0, ticksBeforeCheck := 15000,
      ticksDuringStep := 0, behind := fun _ => 0 }

/-- Even so the lock is closed again 130059 ticks later. -/
theorem opening_in_time_slow :
    ∃ w o d u, u ≤ 9 ∧ OpeningAt (slowFrames.map .frame) 1 w o d u ∧
      timerCheckAt (slowFrames.map .frame) u ≤ 130059 := by
  have hgap : FramesWithin (slowFrames.map .frame) (0 + 15000) :=
    framesWithin_of_frames fun f hf => by
      rw [slowFrames, List.mem_cons, List.mem_cons, List.mem_replicate] at hf
      rcases hf with rfl | rfl | ⟨-, rfl⟩ <;> decide
  obtain ⟨w, o, d, u, hu, hopening, -, -, -, -, -, -, hlate⟩ :=
    opening_in_time (slowFrames.map .frame) (0 + 15000) 1 9 hgap ⟨_, rfl, by decide +kernel⟩
      ⟨_, rfl⟩ (by decide)
  exact ⟨w, o, d, u, hu, hopening, Nat.le_trans hlate (by decide)⟩

end LoccFirmware.System
