import LoccFirmware.System.CycleRefinement

/-!
# Port D Follows the Phase

Seven functions in three files read, modify and write `PORTD` and `DDRD`, each with its
own mask.  At every frame boundary the two registers are nevertheless a function of
`current_locc_step` alone: the cylinder is switched off in phase 4, with its data line
driven low, and powered in every other phase, with its data line pulled high.  The
other pins of the port, the keypad's columns and the latch clock, never change.
-/

namespace LoccFirmware.System

open LoccFirmware.Automata LoccFirmware.Cylinder LoccFirmware.Lock

/-! ## Registers of a phase -/

/-- The port as it stands in a phase; nothing has ever been sent to a cylinder without
power. -/
structure InPhase (step : ℕ) (p : Port) : Prop where
  portd : p.portd = if step = 4 then 0x1F else 0x7F
  ddrd : p.ddrd = if step = 4 then 0x70 else 0x50
  held : ∀ h ∈ p.held, h.powered = true

namespace InPhase

variable {step : ℕ} {p : Port}

theorem off (h : InPhase step p) (hstep : step = 4) : p.portd = 0x1F ∧ p.ddrd = 0x70 := by
  rw [h.portd, h.ddrd, if_pos hstep, if_pos hstep]
  exact ⟨rfl, rfl⟩

theorem on (h : InPhase step p) (hstep : step ≠ 4) : p.portd = 0x7F ∧ p.ddrd = 0x50 := by
  rw [h.portd, h.ddrd, if_neg hstep, if_neg hstep]
  exact ⟨rfl, rfl⟩

/-- A port that is on stands as in every phase but 4. -/
theorem of_on (hportd : p.portd = 0x7F) (hddrd : p.ddrd = 0x50)
    (hheld : ∀ h ∈ p.held, h.powered = true) (hstep : step ≠ 4) : InPhase step p where
  portd := by rw [hportd, if_neg hstep]
  ddrd := by rw [hddrd, if_neg hstep]
  held := hheld

theorem powered (h : InPhase step p) (hstep : step ≠ 4) : p.powered = true := by
  rw [Port.powered, (h.on hstep).1, (h.on hstep).2]
  decide

/-! ## One step of the lock -/

theorem wakeupLocc (h : InPhase step p) (hstep : step ≠ 4) {step' : ℕ} (hstep' : step' ≠ 4) :
    InPhase step' (wakeupLocc p) := by
  obtain ⟨hportd, hddrd⟩ := h.on hstep
  have hpow := h.powered hstep
  refine of_on ?_ ?_ ?_ hstep'
  · simp only [Cylinder.wakeupLocc, generateHigh_portd, systemDelay10us_portd, generateLow_portd,
      hportd]
    decide
  · simp only [Cylinder.wakeupLocc, generateHigh_ddrd, systemDelay10us_ddrd, generateLow_ddrd,
      hddrd]
    decide
  · intro x hx
    simp only [Cylinder.wakeupLocc, generateHigh_held, systemDelay10us_held, generateLow_held,
      List.mem_append, List.mem_singleton] at hx
    -- an earlier wait, or one of the two of the wake-up pulse
    rcases hx with (hx | rfl) | rfl
    · exact h.held x hx
    · simpa using hpow
    · simpa using hpow

theorem openLocc (h : InPhase step p) (hstep : step ≠ 4) {step' : ℕ} (hstep' : step' ≠ 4)
    (behind : ℕ → BitVec 16) : InPhase step' (openLocc behind p).port := by
  obtain ⟨hportd, hddrd⟩ := h.on hstep
  obtain ⟨hheld, -, hportd', hddrd', -⟩ :=
    sendCylinderTelegram_spec (memoryAt openTelegram behind) 8 p
  refine of_on ?_ ?_ ?_ hstep'
  · rw [Cylinder.openLocc, hportd', hportd]
    decide
  · rw [Cylinder.openLocc, hddrd', hddrd]
    decide
  · intro x hx
    rw [Cylinder.openLocc, hheld, List.mem_append, List.mem_map] at hx
    -- an earlier wait, or a half-bit of this telegram
    rcases hx with hx | ⟨level, -, rfl⟩
    · exact h.held x hx
    · exact h.powered hstep

/-- Each case of `do_locc_step` takes the port from the phase of its number to the next. -/
theorem drive {c : StepCase} (h : InPhase c.number p) (behind : ℕ → BitVec 16) :
    InPhase ((c.number + 1) % 5) (c.drive behind p) := by
  cases c with
  | safeState => exact of_on (h.on (by decide)).1 (h.on (by decide)).2 h.held (by decide)
  | wakeupLocc => exact h.wakeupLocc (by decide) (by decide)
  | openLocc => exact h.openLocc (by decide) (by decide) behind
  -- the data line is driven low and the supply switched off
  | powerdownLocc =>
    obtain ⟨hportd, hddrd⟩ := h.on (by decide)
    refine ⟨?_, ?_, h.held⟩
    · simp only [StepCase.drive, powerdownLocc, hportd]
      decide
    · simp only [StepCase.drive, powerdownLocc, hddrd]
      decide
  -- and both undone
  | powerupLocc =>
    obtain ⟨hportd, hddrd⟩ := h.off rfl
    refine of_on ?_ ?_ h.held (by decide)
    · simp only [StepCase.drive, powerupLocc, hportd]
      decide
    · simp only [StepCase.drive, powerupLocc, hddrd]
      decide

/-- The pulse of `shiftreg_out` leaves the latch clock high, as it was. -/
theorem shiftregOut (h : InPhase step p) :
    InPhase step { p with portd := p.portd &&& ~~~0x10 ||| 0x10 } := by
  refine ⟨?_, h.ddrd, h.held⟩
  by_cases hstep : step = 4
  · simp only [(h.off hstep).1, if_pos hstep]
    decide
  · simp only [(h.on hstep).1, if_neg hstep]
    decide

end InPhase

/-! ## One event -/

/-- The lock's variables and its port agree. -/
structure Settled (m : Machine) : Prop where
  refines : ∃ s, Refines m s
  port : InPhase m.locc.currentLoccStep m.locc.port

section Frame

variable {f : FrameInput} {m : Machine}

/-- Out of an opening the phase is 0. -/
theorem Refines.step_eq_zero {s : Sequencer 4} (h : Refines m s) (hidle : m.isLocking = false) :
    m.locc.currentLoccStep = 0 := by
  have hphase : s.phase = 0 := by
    by_contra hne
    rw [h.locking.mpr hne] at hidle
    cases hidle
  rw [h.step, hphase]
  rfl

theorem Settled.beforeTurn (h : Settled m) :
    InPhase (beforeTurn f m).1.locc.currentLoccStep (beforeTurn f m).1.locc.port := by
  obtain ⟨s, hs⟩ := h.refines
  rcases beforeTurn_cases f m with ⟨hlock, -, hturn⟩ | ⟨-, hturn⟩
  · -- a command is accepted in phase 0 only, where the cylinder is on
    have hstep : m.locc.currentLoccStep ≠ 4 := by
      rw [hs.step_eq_zero hlock]
      decide
    obtain ⟨hportd, hddrd⟩ := h.port.on hstep
    rw [hturn]
    simp only [startLocking, ticks_port]
    exact InPhase.of_on hportd hddrd h.port.held (by decide)
  · rw [hturn]
    simp only [ticks_currentLoccStep, ticks_port]
    exact h.port

/-- The lock's turn takes the port from phase to phase, and the step it takes finds the
    port in its own phase. -/
theorem driveLock_inPhase (h : InPhase m.locc.currentLoccStep m.locc.port)
    {s : Sequencer 4} {x : Signal} (hs : RefinesAtCheck m s x) :
    InPhase (driveLock f m).1.locc.currentLoccStep (driveLock f m).1.locc.port ∧
      ∀ p, (driveLock f m).2.1 = some p → InPhase p.stepCase.number p.entry := by
  rcases driveLock_cases f m hs.lt hs.pos with ⟨c, -, -, hstep, hturn⟩ | ⟨-, hturn⟩
  · rw [hstep] at h
    rw [hturn]
    refine ⟨h.drive f.behind, fun p hp => ?_⟩
    obtain rfl := Option.some.inj hp
    exact h
  · rw [hturn]
    refine ⟨?_, fun p hp => by cases hp⟩
    simp only [ticks_currentLoccStep, ticks_port]
    exact h

theorem Settled.loop (h : Settled m) (f : FrameInput) :
    InPhase (loop f m).1.locc.currentLoccStep (loop f m).1.locc.port ∧
      ∀ p, (loop f m).2.performed = some p → InPhase p.stepCase.number p.entry := by
  obtain ⟨s, hs⟩ := h.refines
  obtain ⟨hcheck, -⟩ := hs.beforeTurn (f := f)
    (x := signal (.frame f) (some (System.loop f m).2)) rfl rfl
  obtain ⟨hport, hentry⟩ := driveLock_inPhase (f := f) h.beforeTurn hcheck
  refine ⟨?_, hentry⟩
  rw [loop_currentLoccStep, loop_port]
  exact hport.shiftregOut

end Frame

theorem settled_setup : Settled setup where
  refines := ⟨Sequencer.start, refines_setup⟩
  port := ⟨by decide, by decide, by decide⟩

/-- The invariant of every run. -/
theorem settled_run (events : List Event) : Settled (firmware.run setup events) := by
  refine Mealy.run_induction (I := Settled) (fun m e h => ?_) settled_setup events
  obtain ⟨s, hs⟩ := h.refines
  -- the variables agree by the refinement, the port by the phase it is in
  refine ⟨⟨_, firmware_refines.state m s e hs⟩, ?_⟩
  cases e with
  | tick =>
    show InPhase (timerOverflow m.locc).currentLoccStep (timerOverflow m.locc).port
    rw [timerOverflow_currentLoccStep, timerOverflow_port]
    exact h.port
  | frame f => exact (h.loop f).1

/-- Every step finds the port in its phase. -/
theorem inPhase_of_performed {events : List Event} {o : FrameOutput}
    (ho : some o ∈ firmware.outputs setup events) {p : Performed} (hp : o.performed = some p) :
    InPhase p.stepCase.number p.entry := by
  obtain ⟨t, e, -, hstep⟩ := Mealy.exists_step_of_mem_outputs _ ho
  cases e with
  | tick => cases hstep
  | frame f =>
    obtain rfl := Option.some.inj hstep
    exact ((settled_run (events.take t)).loop f).2 p hp

/-! ## The theorem -/

/-- **Port D is a function of the phase**: after every run from `setup`, the cylinder is
    switched off and its data line driven low in phase 4, and it is powered and its data
    line pulled high in every other phase; the keypad's columns are pulled-up inputs and
    the latch clock a high output throughout.  Every wake-up and every telegram is sent
    to a powered cylinder, and outside an opening the cylinder is powered. -/
theorem port_follows_phase (events : List Event) :
    ((firmware.run setup events).locc.currentLoccStep = 4 →
      (firmware.run setup events).locc.port.portd = 0x1F ∧
      (firmware.run setup events).locc.port.ddrd = 0x70 ∧
      (firmware.run setup events).locc.port.powered = false ∧
      (firmware.run setup events).locc.port.level = .low) ∧
    ((firmware.run setup events).locc.currentLoccStep ≠ 4 →
      (firmware.run setup events).locc.port.portd = 0x7F ∧
      (firmware.run setup events).locc.port.ddrd = 0x50 ∧
      (firmware.run setup events).locc.port.powered = true ∧
      (firmware.run setup events).locc.port.level = .high) ∧
    ((firmware.run setup events).locc.port.portd &&& 0x0F = 0x0F ∧
      (firmware.run setup events).locc.port.ddrd &&& 0x0F = 0) ∧
    ((firmware.run setup events).locc.port.portd &&& 0x10 = 0x10 ∧
      (firmware.run setup events).locc.port.ddrd &&& 0x10 = 0x10) ∧
    (∀ o p, some o ∈ firmware.outputs setup events → o.performed = some p →
      p.stepCase = .wakeupLocc ∨ p.stepCase = .openLocc → p.entry.powered = true) ∧
    (∀ h ∈ (firmware.run setup events).locc.port.held, h.powered = true) ∧
    ((firmware.run setup events).isLocking = false →
      (firmware.run setup events).locc.port.powered = true) := by
  have hsettled := settled_run events
  generalize firmware.run setup events = m at hsettled ⊢
  obtain ⟨⟨s, hs⟩, hport⟩ := hsettled
  refine ⟨fun hstep => ?_, fun hstep => ?_, ?_, ?_, fun o p ho hp hcase => ?_, hport.held,
    fun hidle => ?_⟩
  · obtain ⟨hportd, hddrd⟩ := hport.off hstep
    rw [Port.powered, Port.level, hportd, hddrd]
    decide
  · obtain ⟨hportd, hddrd⟩ := hport.on hstep
    rw [Port.powered, Port.level, hportd, hddrd]
    decide
  · rw [hport.portd, hport.ddrd]
    split <;> decide
  · rw [hport.portd, hport.ddrd]
    split <;> decide
  · have hentry := inPhase_of_performed ho hp
    rcases hcase with hcase | hcase <;> rw [hcase] at hentry <;> exact hentry.powered (by decide)
  · exact hport.powered (by rw [hs.step_eq_zero hidle]; decide)

end LoccFirmware.System
