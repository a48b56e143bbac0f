import LoccFirmware.System.CycleRefinement

/-!
# The Timing of an Opening

One countdown serves all waits of an opening, and the last of them, the time for the
capacitor to charge, goes on after the opening is over.  Measured in timer ticks, every
action comes in the very first frame it may come in, and no received byte changes that.

Times are counted in ticks from `setup` on and are read off the events alone: a frame
looks at the timer after the ticks before it and the ticks in it that come before the
check, and sets the timer after those during its step as well.
-/

namespace LoccFirmware.System

open LoccFirmware.Automata LoccFirmware.Lock

/-! ## Positions and times of a run -/

section Positions

variable (events : List Event)

/-- The case of `do_locc_step` run in event `i`. -/
def performedAt (i : ℕ) : Option StepCase :=
  (firmware.outputs setup events)[i]?.bind fun o =>
    o.bind fun o => o.performed.map Performed.stepCase

/-- A command is accepted in event `k`. -/
def AcceptedAt (k : ℕ) : Prop :=
  ∃ o, (firmware.outputs setup events)[k]? = some (some o) ∧ o.accepted = true

/-- Event `j` is a frame. -/
def IsFrame (j : ℕ) : Prop :=
  ∃ f, events[j]? = some (.frame f)

/-- The tick count when frame `j` checks the timer. -/
def timerCheckAt (j : ℕ) : ℕ :=
  checkAt (events.map Event.window) j

/-- The tick count when a step in frame `i` sets the timer. -/
def waitSetAt (i : ℕ) : ℕ :=
  setAt (events.map Event.window) i

/-- The frames after `i` that check the timer at least `wait` ticks after `i` set it. -/
def framesAfterWait (i wait : ℕ) : Set ℕ :=
  {j | i < j ∧ IsFrame events j ∧ waitSetAt events i + wait ≤ timerCheckAt events j}

/-- Whenever `c` is performed, the next thing performed is `c'`, in exactly the first of
the given frames. -/
def FollowsInFirst (c c' : StepCase) (frames : ℕ → Set ℕ) : Prop :=
  ∀ i, performedAt events i = some c → ∀ j,
    (Next (performedAt events) i j ∧ performedAt events j = some c') ↔ IsLeast (frames i) j

end Positions

/-- An event without the byte received and the pins read: a frame or not, and its
ticks. -/
def Event.timing : Event → Bool × Window
  | .tick => (false, { early := 1, late := 0 })
  | .frame f => (true, { early := f.ticksBeforeCheck, late := f.ticksDuringStep })

/-- The case that follows in the cycle. -/
def nextCase : StepCase → StepCase
  | .safeState => .wakeupLocc
  | .wakeupLocc => .openLocc
  | .openLocc => .powerdownLocc
  | .powerdownLocc => .powerupLocc
  | .powerupLocc => .wakeupLocc

/-! ## From the sequencer to the run -/

section Transfer

variable (events : List Event)

/-- The responses of the sequencer to a run of the firmware. -/
def responses : List (Response 4) :=
  (Sequencer.machine waits).outputs Sequencer.start (signals events)

theorem actionAt_responses (i : ℕ) :
    Sequencer.actionAt (responses events) i = (performedAt events i).map phase := by
  rw [responses, ← responses_eq, Sequencer.actionAt, performedAt, List.getElem?_map]
  cases (firmware.outputs setup events)[i]? with
  | none => rfl
  | some o =>
    cases o with
    | none => rfl
    | some o => simp [response, Function.comp_def]

theorem acceptsAt_responses (k : ℕ) :
    Sequencer.AcceptsAt (responses events) k ↔ AcceptedAt events k := by
  rw [responses, ← responses_eq, Sequencer.AcceptsAt, AcceptedAt, List.getElem?_map]
  cases (firmware.outputs setup events)[k]? with
  | none => simp
  | some o =>
    cases o with
    | none => simp [response]
    | some o => simp [response]

theorem polled_signals (j : ℕ) :
    (∃ x, (signals events)[j]? = some x ∧ x.poll.isSome = true) ↔ IsFrame events j := by
  rw [signals, Mealy.drives, IsFrame, List.getElem?_zipWith, Mealy.outputs_getElem?]
  cases events[j]? with
  | none => simp
  | some e =>
    cases e with
    | tick => simp [signal, firmware]
    | frame f => simp [signal, firmware]

theorem phase_injective : Function.Injective phase := by
  intro c c' h
  cases c <;> cases c' <;> first | rfl | exact absurd h (by decide)

theorem performedAt_eq_some_iff (i : ℕ) (c : StepCase) :
    performedAt events i = some c ↔
      Sequencer.actionAt (responses events) i = some (phase c) := by
  rw [actionAt_responses]
  cases performedAt events i with
  | none => simp
  | some c' => simp [phase_injective.eq_iff]

theorem performedAt_eq_none_iff (i : ℕ) :
    performedAt events i = none ↔ Sequencer.actionAt (responses events) i = none := by
  rw [actionAt_responses, Option.map_eq_none_iff]

theorem next_performedAt_iff (i j : ℕ) :
    Next (performedAt events) i j ↔ Next (Sequencer.actionAt (responses events)) i j := by
  simp only [Next, actionAt_responses, Option.isSome_map, Option.map_eq_none_iff]

theorem performedAt_ne_safeState (i : ℕ) : performedAt events i ≠ some .safeState := by
  rw [Ne, performedAt_eq_some_iff, Sequencer.actionAt, Option.bind_eq_some_iff]
  rintro ⟨r, hr, hzero⟩
  obtain ⟨t, x, -, hstep⟩ := Mealy.exists_step_of_mem_outputs _ (List.mem_of_getElem? hr)
  exact Sequencer.step_action_ne_zero (hstep ▸ hzero)

theorem phase_nextCase (c : StepCase) : phase (nextCase c) = Sequencer.succ (phase c) := by
  cases c <;> decide

variable {events} {i : ℕ} {c : StepCase}

/-- The next action is the next one of the cycle. -/
theorem performedAt_next (hc : performedAt events i = some c) {j : ℕ}
    (hnext : Next (performedAt events) i j) : performedAt events j = some (nextCase c) := by
  rw [performedAt_eq_some_iff, phase_nextCase]
  rw [performedAt_eq_some_iff] at hc
  rw [next_performedAt_iff] at hnext
  exact Sequencer.succ_of_next waits (signals events) hc hnext

/-- It comes in the first frame after its wait, and after a command if the one before it
    completed an opening. -/
theorem next_iff_isLeast (hc : performedAt events i = some c) (j : ℕ) :
    Next (performedAt events) i j ↔
      IsLeast {j ∈ framesAfterWait events i c.wait.toNat |
        c = .powerupLocc → ∃ k, i < k ∧ k ≤ j ∧ AcceptedAt events k} j := by
  have hact := (performedAt_eq_some_iff events i c).mp hc
  rw [next_performedAt_iff, responses, Sequencer.next_iff_isLeast_due waits (signals events) hact]
  -- being due says the same of the run as of the signals it drives
  have hset : {j | Sequencer.Due waits (signals events) (responses events) i (phase c) j} =
      {j ∈ framesAfterWait events i c.wait.toNat |
        c = .powerupLocc → ∃ k, i < k ∧ k ≤ j ∧ AcceptedAt events k} := by
    ext k
    simp only [framesAfterWait, waitSetAt, timerCheckAt, Set.mem_ofPred_eq, ← polled_signals,
      ← acceptsAt_responses, ← phase_succ_eq_zero_iff, ← waits_phase,
      ← map_window_drives setup events]
    exact ⟨fun h => ⟨⟨h.after, h.polled, h.waited⟩, h.requested⟩,
      fun h => ⟨h.1.1, h.1.2.1, h.1.2.2, h.2⟩⟩
  rw [← hset]
  rfl

theorem followsInFirst {frames : ℕ → Set ℕ}
    (hframes : ∀ i, frames i = {j ∈ framesAfterWait events i c.wait.toNat |
      c = .powerupLocc → ∃ k, i < k ∧ k ≤ j ∧ AcceptedAt events k}) :
    FollowsInFirst events c (nextCase c) frames := by
  intro i hi j
  rw [hframes, ← next_iff_isLeast hi]
  exact ⟨And.left, fun h => ⟨h, performedAt_next hi h⟩⟩

/-- Every action follows another one or is the very first. -/
theorem first_or_follows {j : ℕ} (hc : performedAt events j = some c) :
    (∃ i c', Next (performedAt events) i j ∧ performedAt events i = some c' ∧
      c' ≠ .safeState ∧ c = nextCase c') ∨
    (c = .wakeupLocc ∧ AcceptedAt events j ∧ ∀ k < j, performedAt events k = none) := by
  have hact := (performedAt_eq_some_iff events j c).mp hc
  rcases Sequencer.first_or_next waits (signals events) hact with
    ⟨i, hnext, hsome⟩ | ⟨hnone, hone, hacc⟩
  -- an action before it, or none: then it comes with its command
  · rw [← responses, ← next_performedAt_iff] at hnext
    rw [← responses, actionAt_responses, Option.isSome_map, Option.isSome_iff_exists] at hsome
    obtain ⟨c', hc'⟩ := hsome
    refine Or.inl ⟨i, c', hnext, hc', ?_, ?_⟩
    · rintro rfl
      exact performedAt_ne_safeState events i hc'
    · exact Option.some.inj (hc.symm.trans (performedAt_next hc' hnext))
  · refine Or.inr ⟨phase_injective hone, (acceptsAt_responses events j).mp hacc, fun k hk => ?_⟩
    exact (performedAt_eq_none_iff events k).mpr (hnone k hk)

end Transfer

/-! ## Received bytes -/

theorem Event.window_eq_timing (e : Event) : e.window = e.timing.2 := by
  cases e <;> rfl

theorem isFrame_iff_timing (events : List Event) (j : ℕ) :
    IsFrame events j ↔ ((events.map Event.timing)[j]?.map Prod.fst) = some true := by
  rw [IsFrame, List.getElem?_map]
  cases events[j]? with
  | none => simp
  | some e => cases e <;> simp [Event.timing]

theorem framesAfterWait_congr {events events' : List Event}
    (h : events.map Event.timing = events'.map Event.timing) (i wait : ℕ) :
    framesAfterWait events i wait = framesAfterWait events' i wait := by
  -- times are sums of ticks, which the timing of an event includes
  have hwindows : events.map Event.window = events'.map Event.window := by
    have hwindow : Event.window = Prod.snd ∘ Event.timing := funext Event.window_eq_timing
    rw [hwindow, ← List.map_map, ← List.map_map, h]
  ext j
  simp only [framesAfterWait, waitSetAt, timerCheckAt, isFrame_iff_timing, h, hwindows]

/-! ## The theorem -/

/-- **Timing**: along every run from `setup`, the opening comes in exactly the first frame
    59 ticks after the wake-up set the timer, the power-down 15000 ticks after the
    opening, the power-up 5000 ticks after the power-down, and the next wake-up 5000
    ticks after that, in the first such frame from the acceptance of its command on.
    Every action but the very first, which comes with its command, follows another one
    like this.  And two runs with the same frames and ticks wait equally long after an
    action, whatever bytes they receive, if they accept the same commands in rest. -/
theorem cycle_timing (events : List Event) :
    FollowsInFirst events .wakeupLocc .openLocc (fun i => framesAfterWait events i 59) ∧
    FollowsInFirst events .openLocc .powerdownLocc (fun i => framesAfterWait events i 15000) ∧
    FollowsInFirst events .powerdownLocc .powerupLocc (fun i => framesAfterWait events i 5000) ∧
    FollowsInFirst events .powerupLocc .wakeupLocc (fun i =>
      {j ∈ framesAfterWait events i 5000 | ∃ k, i < k ∧ k ≤ j ∧ AcceptedAt events k}) ∧
    (∀ j c, performedAt events j = some c →
      (∃ i c', Next (performedAt events) i j ∧ performedAt events i = some c' ∧
        c' ≠ .safeState ∧ c = nextCase c') ∨
      (c = .wakeupLocc ∧ AcceptedAt events j ∧ ∀ k < j, performedAt events k = none)) ∧
    (∀ events', events.map Event.timing = events'.map Event.timing →
      ∀ i c, performedAt events i = some c → performedAt events' i = some c →
      (c = .powerupLocc → ∀ k, i < k → (AcceptedAt events k ↔ AcceptedAt events' k)) →
      ∀ j, Next (performedAt events) i j ↔ Next (performedAt events') i j) := by
  refine ⟨followsInFirst (c := .wakeupLocc) fun i => ?_,
    followsInFirst (c := .openLocc) fun i => ?_,
    followsInFirst (c := .powerdownLocc) fun i => ?_,
    followsInFirst (c := .powerupLocc) fun i => ?_,
    fun j c hc => first_or_follows hc, fun events' hticks i c hc hc' hacc j => ?_⟩
  · simp [StepCase.wait]
  · simp [StepCase.wait]
  · simp [StepCase.wait]
  · simp [StepCase.wait]
  · -- the frames and their times are those of both runs, and so are the commands
    have hreq : ∀ j, (c = .powerupLocc → ∃ k, i < k ∧ k ≤ j ∧ AcceptedAt events k) ↔
        (c = .powerupLocc → ∃ k, i < k ∧ k ≤ j ∧ AcceptedAt events' k) := by
      intro j
      refine forall_congr' fun hU => exists_congr fun k => ?_
      exact and_congr_right fun hk => and_congr_right fun _ => hacc hU k hk
    rw [next_iff_isLeast hc, next_iff_isLeast hc', framesAfterWait_congr hticks]
    simp only [hreq]

end LoccFirmware.System
