import LoccFirmware.System.Loop

/-!
# The Firmware Refines a Sequencer

Three variables in two files keep track of an opening: `is_locking` in `c_locc.c`,
`current_locc_step` and `wait_ticks` in `locc.c`.  Along every run they agree with the
state of one timed sequencer of four actions: `current_locc_step` is its phase,
`is_locking` says that it is not at rest, and `wait_ticks` is what is left until its
deadline.

The sequencer is polled once per frame, and the command that the parser returns in that
frame is its request.
-/

namespace LoccFirmware.System

open LoccFirmware.Automata LoccFirmware.Lock

/-! ## The sequencer of the lock -/

/-- The ticks to wait after each action, by its number. -/
def waits : Fin 5 → ℕ
  | 0 => 0
  | 1 => 59
  | 2 => 15000
  | 3 => 5000
  | 4 => 5000

/-- The phase in which a case of `do_locc_step` is run. -/
def phase : StepCase → Fin 5
  | .safeState => 0
  | .wakeupLocc => 1
  | .openLocc => 2
  | .powerdownLocc => 3
  | .powerupLocc => 4

/-- An event as the sequencer sees it, given what the frame shows. -/
def signal (e : Event) (o : Option FrameOutput) : Signal where
  toWindow := e.window
  poll := o.map fun o => decide (o.command = 1)

/-- What an event shows, as a response of the sequencer. -/
def response : Option FrameOutput → Response 4
  | none => { accepted := false, action := none }
  | some o => { accepted := o.accepted, action := o.performed.map fun p => phase p.stepCase }

/-- The variables of an opening agree with a state of the sequencer. -/
structure Refines (m : Machine) (s : Sequencer 4) : Prop where
  step : m.locc.currentLoccStep = s.phase.val
  locking : m.isLocking = true ↔ s.phase ≠ 0
  wait : m.locc.waitTicks.toNat = s.deadline - s.now

/-! ## One event -/

theorem phase_val (c : StepCase) : (phase c).val = c.number := by cases c <;> rfl

theorem waits_phase (c : StepCase) : waits (phase c) = c.wait.toNat := by cases c <;> rfl

/-- Only the last case leads back to rest. -/
theorem phase_succ_eq_zero_iff (c : StepCase) : phase c + 1 = 0 ↔ c = .powerupLocc := by
  cases c <;> decide

/-- The machine when the lock's turn comes agrees with the sequencer once it has dealt
    with the request. -/
structure RefinesAtCheck (m : Machine) (s : Sequencer 4) (x : Signal) : Prop where
  step : m.locc.currentLoccStep = (s.polledPhase x).val
  locking : m.isLocking = true ↔ s.polledPhase x ≠ 0
  wait : m.locc.waitTicks.toNat = s.deadline - (s.now + x.early)

section Frame

variable {f : FrameInput} {m : Machine} {s : Sequencer 4} {x : Signal}

/-- The command is accepted exactly when the sequencer accepts the request. -/
theorem Refines.beforeTurn (h : Refines m s) (hearly : x.early = f.ticksBeforeCheck)
    (hpoll : x.poll = some (decide ((handleReceived f.received m.parser).command = 1))) :
    RefinesAtCheck (beforeTurn f m).1 s x ∧ (beforeTurn f m).2 = s.accepts x := by
  -- up to the check the timer has counted the early ticks
  have hwait : (ticks f.ticksBeforeCheck m.locc).waitTicks.toNat =
      s.deadline - (s.now + x.early) := by
    rw [ticks_waitTicks, h.wait, hearly, Nat.sub_sub]
  have hidle : m.isLocking = false ↔ s.phase = 0 := by
    rw [Bool.eq_false_iff, Ne, h.locking, Decidable.not_not]
  have hacc : s.accepts x = true ↔
      m.isLocking = false ∧ (handleReceived f.received m.parser).command = 1 := by
    rw [Sequencer.accepts_iff, hpoll, hidle, Option.some.injEq, decide_eq_true_eq]
  rcases beforeTurn_cases f m with ⟨hlock, hcmd, hturn⟩ | ⟨hno, hturn⟩
  · have haccepts : s.accepts x = true := hacc.mpr ⟨hlock, hcmd⟩
    have hpolled : s.polledPhase x = 1 := by
      rw [Sequencer.polledPhase, if_pos haccepts, hidle.mp hlock, Fin.zero_add]
    rw [hturn, haccepts]
    exact ⟨⟨by rw [hpolled]; rfl, by simp [hpolled], hwait⟩, rfl⟩
  · have haccepts : ¬ s.accepts x = true := fun hyes => hno (hacc.mp hyes)
    have hpolled : s.polledPhase x = s.phase := by rw [Sequencer.polledPhase, if_neg haccepts]
    rw [hturn, Bool.eq_false_iff.mpr haccepts]
    refine ⟨⟨?_, ?_, hwait⟩, rfl⟩
    · rw [hpolled, ticks_currentLoccStep, h.step]
    · rw [hpolled, h.locking]

/-- At the check, an opening that is under way has an action due. -/
theorem RefinesAtCheck.pos (h : RefinesAtCheck m s x) (hlock : m.isLocking = true) :
    0 < m.locc.currentLoccStep := by
  rw [h.step]
  apply Nat.pos_of_ne_zero
  intro hzero
  exact h.locking.mp hlock (Fin.ext hzero)

theorem RefinesAtCheck.lt (h : RefinesAtCheck m s x) : m.locc.currentLoccStep < 5 := by
  rw [h.step]
  exact (s.polledPhase x).isLt

/-- The lock takes a step exactly when the sequencer performs an action, and it is the
    step of that number. -/
theorem RefinesAtCheck.driveLock (h : RefinesAtCheck m s x) (hpoll : x.poll.isSome = true)
    (hlate : x.late = f.ticksDuringStep) :
    Refines (driveLock f m).1 ((Sequencer.machine waits).step s x).1 ∧
      (driveLock f m).2.1.map (fun p => phase p.stepCase) =
        ((Sequencer.machine waits).step s x).2.action := by
  -- the timer has run out exactly when the deadline has passed
  have hexp : timerIsExpired m.locc = true ↔ s.deadline ≤ s.now + x.early := by
    rw [timerIsExpired_iff, h.wait]
    omega
  rcases driveLock_cases f m h.lt h.pos with ⟨c, hlock, hdue, hstep, hturn⟩ | ⟨hno, hturn⟩
  · have hc : phase c = s.polledPhase x := by
      apply Fin.ext
      rw [phase_val, ← hstep, h.step]
    have hf : s.fires x = true :=
      Sequencer.fires_iff.mpr ⟨hpoll, h.locking.mp hlock, hexp.mp hdue⟩
    rw [hturn, Sequencer.step_of_fires hf, ← hc]
    refine ⟨⟨?_, ?_, ?_⟩, rfl⟩
    -- the next step's number, whether the opening goes on, and the new wait
    · simp only [Fin.val_add, phase_val]
      rfl
    · simpa using (not_congr (phase_succ_eq_zero_iff c)).symm
    · simp only [waits_phase, Nat.add_sub_cancel_left]
  · have hf : s.fires x = false := by
      rw [Bool.eq_false_iff, Ne, Sequencer.fires_iff]
      rintro ⟨-, hphase, hdue⟩
      exact hno ⟨h.locking.mpr hphase, hexp.mpr hdue⟩
    rw [hturn, Sequencer.step_of_not_fires hf]
    refine ⟨⟨?_, h.locking, ?_⟩, rfl⟩
    · rw [ticks_currentLoccStep, h.step]
    · rw [ticks_waitTicks, h.wait, ← hlate, Nat.sub_sub, Nat.add_assoc]

/-- A frame is matched by a poll. -/
theorem Refines.loop (h : Refines m s) (f : FrameInput) :
    Refines (loop f m).1
        ((Sequencer.machine waits).step s (signal (.frame f) (some (loop f m).2))).1 ∧
      response (some (loop f m).2) =
        ((Sequencer.machine waits).step s (signal (.frame f) (some (loop f m).2))).2 := by
  obtain ⟨hcheck, hacc⟩ :=
    h.beforeTurn (f := f) (x := signal (.frame f) (some (System.loop f m).2)) rfl rfl
  obtain ⟨hstate, haction⟩ := hcheck.driveLock (f := f) rfl rfl
  -- the scans and the shift register come after the lock's turn and do not concern it
  refine ⟨⟨?_, ?_, ?_⟩, Response.ext ?_ ?_⟩
  · rw [loop_currentLoccStep, hstate.step]
  · rw [loop_isLocking, hstate.locking]
  · rw [loop_waitTicks, hstate.wait]
  · rw [Sequencer.step_accepted, ← hacc, ← loop_accepted]
    rfl
  · rw [← haction, ← loop_performed]
    rfl

/-- A tick between two frames only moves the sequencer's clock. -/
theorem step_tick (s : Sequencer 4) :
    (Sequencer.machine waits).step s (signal .tick none) =
      ({ s with now := s.now + 1 }, response none) := by
  have hacc : s.accepts (signal .tick none) = false := by simp [Sequencer.accepts, signal]
  rw [Sequencer.step_of_not_fires rfl, hacc, Sequencer.polledPhase, hacc]
  rfl

theorem Refines.tick (h : Refines m s) :
    Refines { m with locc := timerOverflow m.locc } { s with now := s.now + 1 } where
  step := by rw [timerOverflow_currentLoccStep, h.step]
  locking := h.locking
  wait := by rw [timerOverflow_waitTicks, h.wait, Nat.sub_sub]

end Frame

/-- **Refinement**: every event is matched by one signal of the sequencer. -/
theorem firmware_refines :
    Mealy.Simulation firmware (Sequencer.machine waits) Refines signal response where
  state m s e h := by
    cases e with
    | tick =>
      have hstep : firmware.step m .tick = ({ m with locc := timerOverflow m.locc }, none) := rfl
      rw [hstep, step_tick]
      exact h.tick
    | frame f => exact (h.loop f).1
  output m s e h := by
    cases e with
    | tick => exact (congrArg Prod.snd (step_tick s)).symm
    | frame f => exact (h.loop f).2

theorem refines_setup : Refines setup Sequencer.start where
  step := rfl
  locking := by decide
  wait := rfl

/-! ## Whole runs -/

/-- The sequencer's signals for a run of the firmware. -/
def signals (events : List Event) : List Signal :=
  firmware.drives signal setup events

theorem refines_run (events : List Event) :
    Refines (firmware.run setup events)
      ((Sequencer.machine waits).run Sequencer.start (signals events)) :=
  firmware_refines.run refines_setup events

theorem responses_eq (events : List Event) :
    (firmware.outputs setup events).map response =
      (Sequencer.machine waits).outputs Sequencer.start (signals events) :=
  firmware_refines.outputs refines_setup events

theorem map_window_drives (m : Machine) (events : List Event) :
    (firmware.drives signal m events).map Signal.toWindow = events.map Event.window :=
  Mealy.map_drives (f := Signal.toWindow) (g := Event.window) (fun _ _ => rfl) m events

end LoccFirmware.System
