import LoccFirmware.Lock.Polled
import LoccFirmware.Automata.SequencerTiming

/-!
# The Cycles of the Polled Driver

Under any sequence of `loccStartOpening`, `loccPoll` and timer ticks the polled driver is
a sequencer of five actions: the four functions that drive the cylinder, and the reset
that follows them.  `state` names the last action performed, so the sequencer's phase is
one ahead of it, and `wait_ticks` is what is left until the deadline.

That the enumeration is never left is part of this: the reset is the action of the last
phase, after which the sequencer rests.
-/

namespace LoccFirmware.Lock

open LoccFirmware.Cylinder LoccFirmware.Automata

/-! ## The sequencer of the polled driver -/

/-- The state entered by the action of a phase. -/
def LoccStates.ofPhase : Fin 6 → LoccStates
  | 0 => sleep
  | 1 => powerup
  | 2 => awaken
  | 3 => opening
  | 4 => powerdown
  | 5 => reset

/-- The phase whose action enters the state of a number. -/
def phase? (number : ℕ) : Option (Fin 6) :=
  if h : number < 6 then some ⟨number, h⟩ else none

/-- The number of the phase in which `state` has a given value. -/
def phaseNumber (state : ℕ) : ℕ :=
  if state = 0 then 0 else state + 1

/-- The ticks to wait after each action. -/
def pollWaits (a : Fin 6) : ℕ :=
  (LoccStates.ofPhase a).wait.toNat

/-- An event as the sequencer sees it.  A `loccStartOpening` that does nothing is not even
a poll. -/
def pollSignal (e : PolledEvent) (o : CallOutput) : Signal where
  toWindow := e.window
  poll :=
    match e with
    | .tick => none
    | .startOpening _ => o.entered.map fun _ => true
    | .poll _ => some false

/-- What a call shows, as a response of the sequencer. -/
def pollResponse (o : CallOutput) : Response 5 where
  accepted := decide (o.entered = some 1)
  action := o.entered.bind phase?

/-- The globals agree with a state of the sequencer. -/
structure PolledRefines (d : Polled) (s : Sequencer 5) : Prop where
  phase : s.phase.val = phaseNumber d.state
  wait : d.locc.waitTicks.toNat = s.deadline - s.now
  rest : d.state = 0 → s.deadline ≤ s.now

theorem ofPhase_number (a : Fin 6) : (LoccStates.ofPhase a).number = a.val := by
  revert a
  decide

theorem phase?_number (a : Fin 6) : phase? (LoccStates.ofPhase a).number = some a := by
  rw [ofPhase_number, phase?, dif_pos a.isLt]

/-- After an action the phase is one ahead of the state again, and after the reset the
    driver is at rest. -/
theorem phaseNumber_settled {a : Fin 6} (ha : a ≠ 0) :
    phaseNumber (LoccStates.ofPhase a).settled.number = (a + 1).val := by
  revert a
  decide

/-- Only the reset leads to `SLEEP`, without a wait. -/
theorem pollWaits_of_settled_sleep {a : Fin 6} (ha : a ≠ 0)
    (hsleep : (LoccStates.ofPhase a).settled.number = 0) : pollWaits a = 0 := by
  revert a
  decide

/-! ## One event -/

section Event

variable {d : Polled} {s : Sequencer 5} {x : Signal}

theorem PolledRefines.sleep_iff (h : PolledRefines d s) : d.state = 0 ↔ s.phase = 0 := by
  rw [Fin.ext_iff, h.phase, phaseNumber]
  split <;> simp_all

/-- An event without a transition only lets time pass. -/
theorem PolledRefines.idle (h : PolledRefines d s) (hacc : s.accepts x = false)
    (hf : s.fires x = false) :
    PolledRefines { d with locc := ticks (x.early + x.late) d.locc }
        ((Sequencer.machine pollWaits).step s x).1 ∧
      ((Sequencer.machine pollWaits).step s x).2 = { accepted := false, action := none } := by
  have hpolled : s.polledPhase x = s.phase := by rw [Sequencer.polledPhase, hacc]; rfl
  rw [Sequencer.step_of_not_fires hf, hacc, hpolled]
  refine ⟨⟨h.phase, ?_, ?_⟩, rfl⟩
  · rw [ticks_waitTicks, h.wait, Nat.sub_sub]
  · intro hsleep
    exact Nat.le_trans (h.rest hsleep) (Nat.le_add_right _ _)

/-- Entering the state of the phase that is due is the sequencer's action. -/
theorem refines_of_fires (hf : s.fires x = true) (step : ℕ) (port : Port) :
    PolledRefines
      { state := (LoccStates.ofPhase (s.polledPhase x)).settled.number
        locc := { waitTicks := (LoccStates.ofPhase (s.polledPhase x)).wait
                  currentLoccStep := step, port := port } }
      ((Sequencer.machine pollWaits).step s x).1 := by
  have hne : s.polledPhase x ≠ 0 := (Sequencer.fires_iff.mp hf).2.1
  rw [Sequencer.step_of_fires hf]
  refine ⟨(phaseNumber_settled hne).symm, ?_, ?_⟩
  · rw [Nat.add_sub_cancel_left]
    rfl
  · intro hsleep
    rw [pollWaits_of_settled_sleep hne hsleep]
    exact Nat.le_refl _

/-- One event of the driver is one signal of the sequencer. -/
def Matches (d : Polled) (s : Sequencer 5) (e : PolledEvent) : Prop :=
  PolledRefines (polledDriver.step d e).1
      ((Sequencer.machine pollWaits).step s (pollSignal e (polledDriver.step d e).2)).1 ∧
    pollResponse (polledDriver.step d e).2 =
      ((Sequencer.machine pollWaits).step s (pollSignal e (polledDriver.step d e).2)).2

/-- A tick, and likewise a call that enters no state. -/
theorem PolledRefines.matches_of_idle (h : PolledRefines d s) {e : PolledEvent} {o : CallOutput}
    (hstep : polledDriver.step d e =
      ({ d with locc := ticks (e.window.early + e.window.late) d.locc }, o))
    (ho : o.entered = none) (hacc : s.accepts (pollSignal e o) = false)
    (hf : s.fires (pollSignal e o) = false) : Matches d s e := by
  obtain ⟨hstate, hresponse⟩ := h.idle hacc hf
  rw [Matches, hstep, hresponse, pollResponse, ho]
  exact ⟨hstate, rfl⟩

/-- A call that enters the state of the phase that is due performs that phase's action. -/
theorem matches_of_fires {e : PolledEvent} {o : CallOutput} {step : ℕ} {port : Port}
    (hf : s.fires (pollSignal e o) = true)
    (hstep : polledDriver.step d e =
      ({ state := (LoccStates.ofPhase (s.polledPhase (pollSignal e o))).settled.number
         locc := { waitTicks := (LoccStates.ofPhase (s.polledPhase (pollSignal e o))).wait
                   currentLoccStep := step, port := port } }, o))
    (ho : o.entered = some (s.polledPhase (pollSignal e o)).val)
    (hacc : s.accepts (pollSignal e o) = decide (o.entered = some 1)) : Matches d s e := by
  have hphase : o.entered.bind phase? = some (s.polledPhase (pollSignal e o)) := by
    rw [ho, Option.bind_some, phase?, dif_pos (Fin.isLt _)]
  rw [Matches, hstep]
  refine ⟨refines_of_fires hf step port, ?_⟩
  rw [Sequencer.step_of_fires hf, pollResponse, hphase, hacc]

theorem PolledRefines.tick (h : PolledRefines d s) : Matches d s .tick := by
  refine h.matches_of_idle (o := { entered := none, performed := none, sent := [] }) rfl rfl ?_ rfl
  exact Bool.and_false _

/-- `loccStartOpening` is an accepted request in `SLEEP` and nothing otherwise. -/
theorem PolledRefines.startOpening (h : PolledRefines d s) (c : Call) :
    Matches d s (.startOpening c) := by
  by_cases hsleep : d.state = 0
  · have hphase : s.phase = 0 := h.sleep_iff.mp hsleep
    have hstep := loccStartOpening_of_sleep c hsleep
    set o : CallOutput := { entered := some 1, performed := _, sent := _ } with ho
    have hacc : s.accepts (pollSignal (.startOpening c) o) = true :=
      Sequencer.accepts_iff.mpr ⟨hphase, rfl⟩
    have hpolled : s.polledPhase (pollSignal (.startOpening c) o) = 1 := by
      rw [Sequencer.polledPhase, if_pos hacc, hphase, Fin.zero_add]
    -- at rest no wait is pending, so the request is also answered
    have hf : s.fires (pollSignal (.startOpening c) o) = true := by
      rw [Sequencer.fires_iff, hpolled]
      exact ⟨rfl, by decide, Nat.le_trans (h.rest hsleep) (Nat.le_add_right _ _)⟩
    apply matches_of_fires hf
    · rw [hpolled]
      exact hstep
    · rw [hpolled]
      rfl
    · rw [hacc]
      rfl
  · refine h.matches_of_idle (loccStartOpening_of_ne_sleep c hsleep) rfl ?_ rfl
    exact Bool.and_false _

/-- `loccPoll` performs the action that is due. -/
theorem PolledRefines.poll (h : PolledRefines d s) (c : Call) : Matches d s (.poll c) := by
  have hacc (o : CallOutput) : s.accepts (pollSignal (.poll c) o) = false := Bool.and_false _
  have hpolled (o : CallOutput) : s.polledPhase (pollSignal (.poll c) o) = s.phase := by
    rw [Sequencer.polledPhase, hacc]
    rfl
  -- it looks at the timer exactly as the sequencer looks at the clock
  have hdue (o : CallOutput) : s.fires (pollSignal (.poll c) o) = true ↔
      d.state ≠ 0 ∧ d.locc.waitTicks.toNat ≤ c.early := by
    rw [Sequencer.fires_iff, hpolled, Ne, ← h.sleep_iff, h.wait, Nat.sub_le_iff_le_add']
    exact and_iff_right rfl
  by_cases hcheck : d.state ≠ 0 ∧ d.locc.waitTicks.toNat ≤ c.early
  · have hphase : s.phase.val = d.state + 1 := by
      rw [h.phase, phaseNumber, if_neg hcheck.1]
    have hstep := loccPoll_of_expired c hcheck.1 hcheck.2
      (hphase.symm.trans (ofPhase_number s.phase).symm)
    rw [ofPhase_number] at hstep
    set o : CallOutput := { entered := some s.phase.val, performed := _, sent := _ } with ho
    apply matches_of_fires ((hdue o).mpr hcheck)
    · rw [hpolled]
      exact hstep
    · rw [hpolled]
    · -- the state entered comes after another one, so no request is reported
      have hentered : o.entered ≠ some 1 := by
        rw [ho, hphase]
        simp [hcheck.1]
      rw [hacc, decide_eq_false hentered]
  · refine h.matches_of_idle (loccPoll_of_running c hcheck) rfl (hacc _) ?_
    rw [Bool.eq_false_iff, Ne, hdue]
    exact hcheck

end Event

/-- **Refinement**: the polled driver is a sequencer of five actions. -/
theorem polledDriver_refines :
    Mealy.Simulation polledDriver (Sequencer.machine pollWaits) PolledRefines pollSignal
      pollResponse := by
  have hmatches (d : Polled) (s : Sequencer 5) (e : PolledEvent) (h : PolledRefines d s) :
      Matches d s e := by
    cases e with
    | tick => exact h.tick
    | startOpening c => exact h.startOpening c
    | poll c => exact h.poll c
  exact ⟨fun d s e h => (hmatches d s e h).1, fun d s e h => (hmatches d s e h).2⟩

/-! ## What is performed -/

/-- The function that `state_machine` calls for a number. -/
def calledFor (number : ℕ) : Option LoccAction :=
  (phase? number).bind fun a => (LoccStates.ofPhase a).action

theorem stateMachine_performed (during : ℕ) (behind : ℕ → BitVec 16) (number : ℕ) (d : Polled) :
    (stateMachine during behind number d).performed = calledFor number := by
  by_cases hrange : number < 6
  · have hnumber : (LoccStates.ofPhase ⟨number, hrange⟩).number = number := ofPhase_number _
    rw [← hnumber, stateMachine_eq, calledFor, phase?_number]
    rfl
  · -- no case of the switch
    rw [calledFor, phase?, dif_neg hrange, stateMachine]
    · rfl
    all_goals omega

/-- An event performs what `state_machine` does for the state it enters. -/
theorem step_performed (d : Polled) (e : PolledEvent) :
    (polledDriver.step d e).2.performed = (polledDriver.step d e).2.entered.bind calledFor := by
  cases e with
  | tick => rfl
  | startOpening c =>
    simp only [polledDriver, loccStartOpening]
    split
    · exact stateMachine_performed _ _ _ _
    · rfl
  | poll c =>
    simp only [polledDriver, loccPoll]
    split
    · exact stateMachine_performed _ _ _ _
    · rfl

/-- Power-up is performed for `POWERUP` only. -/
theorem calledFor_eq_powerupLocc_iff (number : ℕ) :
    calledFor number = some .powerupLocc ↔ number = 1 := by
  unfold calledFor phase?
  split
  · rename_i hrange
    have htable : ∀ a : Fin 6, (LoccStates.ofPhase a).action = some .powerupLocc ↔ a.val = 1 := by
      decide
    exact htable ⟨number, hrange⟩
  · simp only [Option.bind_none, reduceCtorEq, false_iff]
    omega

/-- A cycle is started by `loccStartOpening` in `SLEEP`, and by nothing else. -/
theorem step_performs_powerup_iff (d : Polled) (e : PolledEvent) :
    (polledDriver.step d e).2.performed = some .powerupLocc ↔
      ∃ c, e = .startOpening c ∧ d.state = 0 := by
  rw [step_performed]
  cases e with
  | tick => simp [polledDriver]
  | startOpening c =>
    simp only [polledDriver, loccStartOpening]
    split
    · rename_i hsleep
      simp [calledFor_eq_powerupLocc_iff, hsleep]
    · rename_i hbusy
      simp [hbusy]
  | poll c =>
    simp only [polledDriver, loccPoll]
    split
    · rename_i hbusy
      simp [calledFor_eq_powerupLocc_iff, hbusy.1]
    · simp

/-! ## Whole runs -/

section Runs

variable (port : Port) (step : ℕ) (events : List PolledEvent)

/-- The driver after a run. -/
def driverAfter : Polled :=
  polledDriver.run (initial port step) events

/-- What the events of a run show. -/
def callOutputs : List CallOutput :=
  polledDriver.outputs (initial port step) events

/-- The functions called on the cylinder during a run. -/
def calls : List LoccAction :=
  (callOutputs port step events).filterMap CallOutput.performed

/-- The function called on the cylinder in event `i`. -/
def calledAt (i : ℕ) : Option LoccAction :=
  (callOutputs port step events)[i]?.bind CallOutput.performed

/-- The tick count when the call of event `j` looks at `state` and `wait_ticks`. -/
def lookedAt (j : ℕ) : ℕ :=
  checkAt (events.map PolledEvent.window) j

/-- The tick count when the call of event `i` has written `wait_ticks`. -/
def writtenAt (i : ℕ) : ℕ :=
  setAt (events.map PolledEvent.window) i

/-- The sequencer's signals for a run of the driver. -/
def pollSignals : List Signal :=
  polledDriver.drives pollSignal (initial port step) events

theorem refines_initial : PolledRefines (initial port step) Sequencer.start where
  phase := rfl
  wait := rfl
  rest _ := Nat.le_refl 0

theorem driverAfter_refines :
    PolledRefines (driverAfter port step events)
      ((Sequencer.machine pollWaits).run Sequencer.start (pollSignals port step events)) :=
  polledDriver_refines.run (refines_initial port step) events

theorem pollResponses_eq :
    (callOutputs port step events).map pollResponse =
      (Sequencer.machine pollWaits).outputs Sequencer.start (pollSignals port step events) :=
  polledDriver_refines.outputs (refines_initial port step) events

theorem map_window_pollSignals :
    (pollSignals port step events).map Signal.toWindow = events.map PolledEvent.window :=
  Mealy.map_drives (f := Signal.toWindow) (g := PolledEvent.window) (fun _ _ => rfl) _ events

/-- **The enumeration is not left**, and `RESET` is left before a call returns. -/
theorem state_in_range :
    ∃ c : LoccStates, c ≠ .reset ∧ (driverAfter port step events).state = c.number := by
  have hrefines := driverAfter_refines port step events
  have hlt := ((Sequencer.machine pollWaits).run Sequencer.start
    (pollSignals port step events)).phase.isLt
  rw [hrefines.phase, phaseNumber] at hlt
  have htable : ∀ a : Fin 5, ∃ c : LoccStates, c ≠ .reset ∧ a.val = c.number := by
    intro a
    refine ⟨LoccStates.ofPhase a.castSucc, ?_, (ofPhase_number a.castSucc).symm⟩
    revert a
    decide
  refine htable ⟨(driverAfter port step events).state, ?_⟩
  split at hlt <;> omega

/-! ### Order -/

/-- What a call performs, among the marks of its response. -/
theorem marks_filterMap_action {o : CallOutput} (ho : o ∈ callOutputs port step events) :
    (pollResponse o).marks.filterMap (fun a => (LoccStates.ofPhase a).action) =
      o.performed.toList := by
  obtain ⟨t, e, -, rfl⟩ := Mealy.exists_step_of_mem_outputs _ ho
  rw [step_performed]
  -- the mark of an accepted request is that of `SLEEP`, which performs nothing
  have hrequest (b : Bool) : (if b then [(0 : Fin 6)] else []).filterMap
      (fun a => (LoccStates.ofPhase a).action) = [] := by
    cases b <;> rfl
  rw [Response.marks, List.filterMap_append, hrequest, List.nil_append, pollResponse]
  unfold calledFor
  rw [← Option.bind_assoc]
  cases ((polledDriver.step _ e).2.entered.bind phase?) with
  | none => rfl
  | some a => cases h : (LoccStates.ofPhase a).action <;> simp [h]

theorem calls_prefix :
    ∃ N, calls port step events <+: (List.replicate N
      [LoccAction.powerupLocc, .wakeupLocc, .openLocc, .powerdownLocc]).flatten := by
  obtain ⟨k, hmarks, -⟩ := Sequencer.marks_eq_cycle pollWaits (pollSignals port step events)
  have hcalls : calls port step events =
      (Sequencer.cycle 5 k).filterMap fun a => (LoccStates.ofPhase a).action := by
    rw [← hmarks, ← pollResponses_eq, Sequencer.marks, List.flatMap_map, List.filterMap_flatMap,
      calls, List.filterMap_eq_flatMap_toList]
    exact List.flatMap_congr fun o ho => (marks_filterMap_action port step events ho).symm
  have hprefix := (Sequencer.cycle_prefix k (n := 5)).filterMap
    fun a => (LoccStates.ofPhase a).action
  rw [← hcalls, List.filterMap_flatten, List.map_replicate] at hprefix
  exact ⟨k, hprefix⟩

/-! ### Timing -/

/-- The ticks that have to pass after a function was called. -/
def LoccAction.ticksAfter : LoccAction → ℕ
  | powerupLocc => 50
  | wakeupLocc => 59
  | openLocc => 10000
  | powerdownLocc => 2

theorem actionAt_of_calledAt {i : ℕ} {f : LoccAction} (h : calledAt port step events i = some f) :
    ∃ a, Sequencer.actionAt ((Sequencer.machine pollWaits).outputs Sequencer.start
        (pollSignals port step events)) i = some a ∧ pollWaits a = f.ticksAfter := by
  obtain ⟨o, ho, hperformed⟩ := Option.bind_eq_some_iff.mp h
  obtain ⟨t, e, -, hstep⟩ := Mealy.exists_step_of_mem_outputs _ (List.mem_of_getElem? ho)
  rw [← hstep, step_performed, hstep] at hperformed
  obtain ⟨number, hentered, hcalled⟩ := Option.bind_eq_some_iff.mp hperformed
  obtain ⟨a, ha, haction⟩ := Option.bind_eq_some_iff.mp hcalled
  refine ⟨a, ?_, ?_⟩
  · rw [← pollResponses_eq, Sequencer.actionAt, List.getElem?_map, ho, Option.map_some,
      Option.bind_some, pollResponse, hentered, Option.bind_some, ha]
  · have htable : ∀ (a : Fin 6) (c : LoccAction), (LoccStates.ofPhase a).action = some c →
        pollWaits a = c.ticksAfter := by
      intro a c hc
      cases c <;> revert a <;> decide
    exact htable a f haction

theorem waited_after_call {i j : ℕ} {f g : LoccAction} (hij : i < j)
    (hi : calledAt port step events i = some f) (hj : calledAt port step events j = some g) :
    writtenAt events i + f.ticksAfter ≤ lookedAt events j := by
  obtain ⟨a, ha, hwait⟩ := actionAt_of_calledAt port step events hi
  obtain ⟨b, hb, -⟩ := actionAt_of_calledAt port step events hj
  have hwaited := Sequencer.waited_of_lt pollWaits (pollSignals port step events) ha hb hij
  rw [map_window_pollSignals, hwait] at hwaited
  exact hwaited

/-! ### The theorem -/

theorem calledAt_powerup_iff (j : ℕ) :
    calledAt port step events j = some .powerupLocc ↔
      ∃ c, events[j]? = some (.startOpening c) ∧
        (driverAfter port step (events.take j)).state = LoccStates.sleep.number := by
  rw [calledAt, callOutputs, Mealy.outputs_getElem?]
  cases events[j]? with
  | none => simp
  | some e =>
    rw [Option.map_some, Option.bind_some, step_performs_powerup_iff]
    simp only [Option.some.injEq]
    rfl

/-- **Whole cycles**: along every run of calls and ticks from `SLEEP`, the state between
    calls is one of the enumeration other than `RESET`; the functions called on the
    cylinder follow each other as power-up, wake-up, opening and power-down, over and
    over, and at least 50, 59, 10000 and 2 ticks pass after each of them before the next;
    each power-up is made by one `loccStartOpening` in `SLEEP` and each of these makes one;
    and a `loccStartOpening` in any other state does nothing while the timer runs on. -/
theorem polled_driver_cycles :
    (∃ c : LoccStates, c ≠ .reset ∧ (driverAfter port step events).state = c.number) ∧
    (∃ N, calls port step events <+: (List.replicate N
      [.powerupLocc, .wakeupLocc, .openLocc, .powerdownLocc]).flatten) ∧
    (∀ i j f g, i < j → calledAt port step events i = some f →
      calledAt port step events j = some g →
      writtenAt events i + f.ticksAfter ≤ lookedAt events j) ∧
    (∀ j, calledAt port step events j = some .powerupLocc ↔
      ∃ c, events[j]? = some (.startOpening c) ∧
        (driverAfter port step (events.take j)).state = LoccStates.sleep.number) ∧
    (∀ c, (driverAfter port step events).state ≠ LoccStates.sleep.number →
      polledDriver.step (driverAfter port step events) (.startOpening c) =
        ({ driverAfter port step events with
            locc := ticks (c.early + c.late) (driverAfter port step events).locc },
         { entered := none, performed := none, sent := [] })) :=
  ⟨state_in_range port step events, calls_prefix port step events,
    fun _ _ _ _ hij hi hj => waited_after_call port step events hij hi hj,
    calledAt_powerup_iff port step events, fun c hbusy => loccStartOpening_of_ne_sleep c hbusy⟩

end Runs

/-- A call with the given ticks before its check. -/
def callAfter (ticks : ℕ) : Call :=
  { early := ticks, late := 0, behind := fun _ => 0 }

-- the wake-up comes 50 ticks after the power-up, and a second request on the way is ignored
example : calls ⟨0x7F, 0x50, []⟩ 0 [.startOpening (callAfter 3), .poll (callAfter 49),
    .startOpening (callAfter 0), .tick, .poll (callAfter 0)] =
    [.powerupLocc, .wakeupLocc] := by
  decide +kernel

end LoccFirmware.Lock
