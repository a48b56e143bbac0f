import LoccFirmware.Lock.PolledCycle
import LoccFirmware.System.CylinderLine

/-!
# The Polled Driver, Seen from Outside

The cylinder sees the supply and the data line, the host sees the bytes that
`state_machine` sends on its way.  Both are held against every run of `loccStartOpening`,
`loccPoll` and ticks after `loccSetup`: the pins rest as they do with the driver of
`do_locc_step`, the busy waits are those of the calls that were made, and the last state
byte that was sent names `state`.
-/

namespace LoccFirmware.System

open LoccFirmware.Automata LoccFirmware.Coding LoccFirmware.Cylinder LoccFirmware.Lock

/-! ## What is seen -/

/-- The case of `do_locc_step` that calls the same function. -/
def stepCaseOf : LoccAction → StepCase
  | .powerupLocc => .powerupLocc
  | .wakeupLocc => .wakeupLocc
  | .openLocc => .openLocc
  | .powerdownLocc => .powerdownLocc

/-- The words behind `openTelegram` during an event. -/
def polledBehind : PolledEvent → ℕ → BitVec 16
  | .tick => fun _ => 0
  | .startOpening c => c.behind
  | .poll c => c.behind

/-- The act in an event, if there is one. -/
def polledAct? (e : PolledEvent) (o : CallOutput) : Option Act :=
  o.performed.map fun f => { stepCase := stepCaseOf f, behind := polledBehind e }

/-- The bytes that `state_machine` sends. -/
def isStateByte (b : UInt8) : Bool :=
  b ∈ ['['.toUInt8, ']'.toUInt8, '\x7b'.toUInt8, '\x7d'.toUInt8, '\x22'.toUInt8]

/-- The state a driver is in after it has sent a state byte. -/
def stateNamed (b : UInt8) : LoccStates :=
  if b = ']'.toUInt8 then .powerup
  else if b = '\x7b'.toUInt8 then .awaken
  else if b = '\x7d'.toUInt8 then .opening
  else if b = '\x22'.toUInt8 then .powerdown
  else .sleep

section Runs

variable (step : ℕ) (events : List PolledEvent)

/-- The acts of a run of the polled driver after `loccSetup`. -/
def polledActs : List Act :=
  (polledDriver.drives polledAct? (initial setup.locc.port step) events).filterMap id

/-- The state bytes sent during the run. -/
def stateBytes : List UInt8 :=
  ((callOutputs setup.locc.port step events).flatMap CallOutput.sent).filter isStateByte

end Runs

/-! ## One event -/

/-- The state that is entered next. -/
def followingState : LoccStates → LoccStates
  | .sleep => .powerup
  | .powerup => .awaken
  | .awaken => .opening
  | .opening => .powerdown
  | .powerdown => .reset
  | .reset => .powerup

theorem number_following {c : LoccStates} (hc : c ≠ .reset) :
    (followingState c).number = c.number + 1 := by
  cases c with
  | reset => exact absurd rfl hc
  | _ => rfl

theorem number_eq_zero_iff {c : LoccStates} : c.number = 0 ↔ c = .sleep := by
  cases c <;> decide

theorem stateNamed_byte (c : LoccStates) : stateNamed c.byte = c.settled := by
  cases c <;> decide

/-- The byte of a state behind the mark of the call that entered it. -/
theorem filter_isStateByte (c : LoccStates) {b : UInt8} (hb : isStateByte b = false) :
    [b, c.byte].filter isStateByte = [c.byte] := by
  have hbyte : isStateByte c.byte = true := by cases c <;> decide
  rw [List.filter_cons, hb, List.filter_cons, hbyte]
  rfl

/-- What an event does that enters no state. -/
structure Idles (d d' : Polled) (o : CallOutput) : Prop where
  state : d'.state = d.state
  port : d'.locc.port = d.locc.port
  entered : o.entered = none
  performed : o.performed = none
  bytes : o.sent.filter isStateByte = []

/-- What an event does that enters a state. -/
structure Enters (c : LoccStates) (behind : ℕ → BitVec 16) (d d' : Polled) (o : CallOutput) :
    Prop where
  state : d'.state = c.settled.number
  port : d'.locc.port = c.action.elim d.locc.port fun a => a.drive behind d.locc.port
  entered : o.entered = some c.number
  performed : o.performed = c.action
  bytes : o.sent.filter isStateByte = [c.byte]

/-- Every event leaves the state alone or enters the next one. -/
theorem idles_or_enters {d : Polled} {c : LoccStates} (hc : c ≠ .reset) (hd : d.state = c.number)
    (e : PolledEvent) :
    Idles d (polledDriver.step d e).1 (polledDriver.step d e).2 ∨
      Enters (followingState c) (polledBehind e) d (polledDriver.step d e).1
        (polledDriver.step d e).2 := by
  cases e with
  | tick => exact Or.inl ⟨rfl, timerOverflow_port _, rfl, rfl, rfl⟩
  | startOpening call =>
    have hstep : polledDriver.step d (.startOpening call) = loccStartOpening call d := rfl
    by_cases hsleep : d.state = 0
    · obtain rfl := number_eq_zero_iff.mp (hd.symm.trans hsleep)
      rw [hstep, loccStartOpening_of_sleep call hsleep]
      exact Or.inr ⟨rfl, rfl, rfl, rfl, filter_isStateByte .powerup (by decide)⟩
    · rw [hstep, loccStartOpening_of_ne_sleep call hsleep]
      exact Or.inl ⟨rfl, ticks_port _ _, rfl, rfl, rfl⟩
  | poll call =>
    have hstep : polledDriver.step d (.poll call) = loccPoll call d := rfl
    by_cases hdue : d.state ≠ 0 ∧ d.locc.waitTicks.toNat ≤ call.early
    · have hnext : d.state + 1 = (followingState c).number := by
        rw [hd, number_following hc]
      rw [hstep, loccPoll_of_expired call hdue.1 hdue.2 hnext]
      exact Or.inr ⟨rfl, rfl, rfl, rfl, filter_isStateByte _ (by decide)⟩
    · rw [hstep, loccPoll_of_running call hdue]
      exact Or.inl ⟨rfl, ticks_port _ _, rfl, rfl, rfl⟩

/-! ## Whole runs -/

/-- `powerup_locc` switches the supply on, or leaves it on. -/
theorem inPhase_powerupLocc {number : ℕ} {p : Port} (h : InPhase number p) :
    InPhase 0 (powerupLocc p) := by
  by_cases hoff : number = 4
  · subst hoff
    exact h.drive (c := .powerupLocc) (fun _ => 0)
  · obtain ⟨hportd, hddrd⟩ := h.on hoff
    refine .of_on ?_ ?_ h.held (by decide)
    · simp only [powerupLocc, hportd]
      decide
    · simp only [powerupLocc, hddrd]
      decide

/-- The driver as it stands after the acts and the state bytes so far. -/
structure Observed (acts : List Act) (bytes : List UInt8) (d : Polled) : Prop where
  state : ∃ c, c ≠ LoccStates.reset ∧ d.state = c.number ∧
    (bytes.getLast?.map stateNamed).getD .sleep = c ∧
    (c ≠ .sleep → lastCase acts = c.action.map stepCaseOf)
  port : InPhase (portPhase (lastCase acts)) d.locc.port
  held : d.locc.port.held = acts.flatMap fun a => heldBy a.behind a.stepCase

/-- An action on a port that is ready for it leaves its busy waits behind and the port in
    its next phase. -/
theorem drive_spec (f : LoccAction) (behind : ℕ → BitVec 16) {number : ℕ} {p : Port}
    (h : InPhase number p) (hready : f ≠ .powerupLocc → number ≠ 4) :
    InPhase (portPhase (some (stepCaseOf f))) (f.drive behind p) ∧
      (f.drive behind p).held = p.held ++ heldBy behind (stepCaseOf f) := by
  cases f with
  | powerupLocc => exact ⟨inPhase_powerupLocc h, (List.append_nil _).symm⟩
  | wakeupLocc =>
    have hready := hready (by decide)
    have hone : InPhase StepCase.wakeupLocc.number p :=
      .of_on (h.on hready).1 (h.on hready).2 h.held (by decide)
    exact ⟨h.wakeupLocc hready (by decide), drive_held hone behind⟩
  | openLocc =>
    have hready := hready (by decide)
    have htwo : InPhase StepCase.openLocc.number p :=
      .of_on (h.on hready).1 (h.on hready).2 h.held (by decide)
    exact ⟨h.openLocc hready (by decide) behind, drive_held htwo behind⟩
  | powerdownLocc =>
    have hready := hready (by decide)
    have hthree : InPhase StepCase.powerdownLocc.number p :=
      .of_on (h.on hready).1 (h.on hready).2 h.held (by decide)
    exact ⟨hthree.drive behind, drive_held hthree behind⟩

section Step

variable {acts : List Act} {bytes : List UInt8} {d d' : Polled} {o : CallOutput}

theorem Observed.idles (h : Observed acts bytes d) (hidle : Idles d d' o) :
    Observed acts bytes d' where
  state := by
    rw [hidle.state]
    exact h.state
  port := by
    rw [hidle.port]
    exact h.port
  held := by
    rw [hidle.port]
    exact h.held

section States

variable {c : LoccStates} {f : LoccAction}

/-- A state that calls something stays the state until the next poll. -/
theorem settled_action (hc : c ≠ .reset) (hact : (followingState c).action = some f) :
    (followingState c).settled.action = some f := by
  rw [← hact]
  revert hact hc
  cases c <;> simp [LoccStates.action, followingState, LoccStates.settled]

/-- What is done after a power-down is a power-up. -/
theorem port_ready (hc : c ≠ .reset)
    (hlast : c ≠ .sleep → lastCase acts = c.action.map stepCaseOf)
    (hact : (followingState c).action = some f) (hne : f ≠ .powerupLocc) :
    portPhase (lastCase acts) ≠ 4 := by
  apply portPhase_ne_four
  have hawake : c ≠ .sleep := by
    rintro rfl
    exact hne (Option.some.inj hact).symm
  rw [hlast hawake]
  revert hact hc hawake
  cases c <;> simp [LoccStates.action, followingState, stepCaseOf]

end States

/-- Entering a state whose action finds the port ready. -/
theorem Observed.enters (h : Observed acts bytes d) {c : LoccStates} (hc : c ≠ .reset)
    (hd : d.state = c.number)
    (hlast : c ≠ .sleep → lastCase acts = c.action.map stepCaseOf)
    {behind : ℕ → BitVec 16} (henters : Enters (followingState c) behind d d' o) :
    Observed
      (acts ++ ((followingState c).action.map
        fun f => (⟨stepCaseOf f, behind⟩ : Act)).toList)
      (bytes ++ [(followingState c).byte]) d' := by
  have hnamed : ((bytes ++ [(followingState c).byte]).getLast?.map stateNamed).getD .sleep =
      (followingState c).settled := by
    rw [List.getLast?_concat, Option.map_some, stateNamed_byte]
    rfl
  have hsettled : (followingState c).settled ≠ .reset := by
    cases c <;> decide
  cases hact : (followingState c).action with
  | none =>
    -- only `RESET` calls nothing, and it ends in `SLEEP`
    have hpower : c = .powerdown := by
      revert hact hc
      cases c <;> decide
    subst hpower
    have hport := henters.port
    rw [hact] at hport
    refine ⟨⟨_, hsettled, henters.state, hnamed, fun hne => absurd rfl hne⟩, ?_, ?_⟩
    · rw [hport, Option.map_none, Option.toList_none, List.append_nil]
      exact h.port
    · rw [hport, Option.map_none, Option.toList_none, List.append_nil]
      exact h.held
  | some f =>
    have hport := henters.port
    rw [hact] at hport
    obtain ⟨hphase, hheld⟩ := drive_spec f behind h.port (port_ready hc hlast hact)
    have hlast' : lastCase (acts ++ [(⟨stepCaseOf f, behind⟩ : Act)]) = some (stepCaseOf f) :=
      lastCase_append acts (some _)
    rw [Option.map_some, Option.toList_some]
    refine ⟨⟨_, hsettled, henters.state, hnamed, fun _ => ?_⟩, ?_, ?_⟩
    · rw [hlast', settled_action hc hact, Option.map_some]
    · rw [hport, hlast']
      exact hphase
    · rw [hport, List.flatMap_append, List.flatMap_singleton, ← h.held]
      exact hheld

end Step

section Runs

variable (step : ℕ) (events : List PolledEvent)

theorem polledActs_concat (e : PolledEvent) :
    polledActs step (events ++ [e]) = polledActs step events ++
      (polledAct? e (polledDriver.step (driverAfter setup.locc.port step events) e).2).toList := by
  rw [polledActs, Mealy.drives_append, List.filterMap_append, ← polledActs, Mealy.drives_cons,
    Mealy.drives_nil, List.filterMap_cons, driverAfter]
  cases polledAct? e
    (polledDriver.step (polledDriver.run (initial setup.locc.port step) events) e).2 <;> rfl

theorem stateBytes_concat (e : PolledEvent) :
    stateBytes step (events ++ [e]) = stateBytes step events ++
      (polledDriver.step (driverAfter setup.locc.port step events) e).2.sent.filter
        isStateByte := by
  rw [stateBytes, callOutputs, Mealy.outputs_concat, List.flatMap_append, List.flatMap_singleton,
    List.filter_append]
  rfl

/-- What is seen from outside determines the state and the port, after every run. -/
theorem observed :
    Observed (polledActs step events) (stateBytes step events)
      (driverAfter setup.locc.port step events) := by
  induction events using List.reverseRecOn with
  | nil =>
    refine ⟨⟨.sleep, by decide, rfl, rfl, fun hne => absurd rfl hne⟩, ?_, rfl⟩
    exact settled_setup.port
  | append_singleton events e ih =>
    obtain ⟨c, hc, hd, -, hlast⟩ := ih.state
    have hrun : driverAfter setup.locc.port step (events ++ [e]) =
        (polledDriver.step (driverAfter setup.locc.port step events) e).1 :=
      Mealy.run_concat _ _ _ _
    rw [hrun, polledActs_concat, stateBytes_concat]
    rcases idles_or_enters hc hd e with hidle | henters
    · rw [hidle.bytes, polledAct?, hidle.performed, Option.map_none, Option.toList_none,
        List.append_nil, List.append_nil]
      exact ih.idles hidle
    · rw [henters.bytes, polledAct?, henters.performed]
      exact ih.enters hc hd hlast henters

/-! ## The host -/

/-- The byte sent in a phase; at rest nothing is sent. -/
def byte? (a : Fin 6) : Option UInt8 :=
  if a = 0 then none else some (LoccStates.ofPhase a).byte

/-- The state byte of a call, among the marks of its response. -/
theorem marks_filterMap_byte? {o : CallOutput}
    (ho : o ∈ callOutputs setup.locc.port step events) :
    (pollResponse o).marks.filterMap byte? = o.sent.filter isStateByte := by
  obtain ⟨t, e, -, rfl⟩ := Mealy.exists_step_of_mem_outputs _ ho
  obtain ⟨c, hc, hd, -⟩ := (observed step (events.take t)).state
  rcases idles_or_enters hc hd e with hidle | henters
  · have hentered := hidle.entered
    have hbytes := hidle.bytes
    rw [driverAfter] at hentered hbytes
    rw [hbytes, Response.marks, pollResponse, hentered]
    rfl
  · have hentered := henters.entered
    have hbytes := henters.bytes
    rw [driverAfter] at hentered hbytes
    rw [hbytes, Response.marks, pollResponse, hentered]
    cases c <;> rfl

theorem stateBytes_cycles :
    ∃ N, stateBytes step events <+: (List.replicate N
      [']'.toUInt8, '\x7b'.toUInt8, '\x7d'.toUInt8, '\x22'.toUInt8, '['.toUInt8]).flatten := by
  obtain ⟨k, hmarks, -⟩ :=
    Sequencer.marks_eq_cycle pollWaits (pollSignals setup.locc.port step events)
  have hbytes : stateBytes step events = (Sequencer.cycle 5 k).filterMap byte? := by
    rw [← hmarks, ← pollResponses_eq, Sequencer.marks, List.flatMap_map, List.filterMap_flatMap,
      stateBytes, List.filter_flatMap]
    exact List.flatMap_congr fun o ho => (marks_filterMap_byte? step events ho).symm
  have hprefix := (Sequencer.cycle_prefix k (n := 5)).filterMap byte?
  rw [← hbytes, List.filterMap_flatten, List.map_replicate] at hprefix
  exact ⟨k, hprefix⟩

/-! ## The cylinder -/

theorem map_stepCase_polledDrives (d : Polled) :
    ((polledDriver.drives polledAct? d events).filterMap id).map Act.stepCase =
      ((polledDriver.outputs d events).filterMap CallOutput.performed).map stepCaseOf := by
  induction events generalizing d with
  | nil => rfl
  | cons e events ih =>
    rw [Mealy.drives_cons, Mealy.outputs_cons, List.filterMap_cons, List.filterMap_cons,
      polledAct?]
    cases (polledDriver.step d e).2.performed with
    | none => exact ih _
    | some f => exact congrArg (stepCaseOf f :: ·) (ih _)

theorem map_stepCase_polledActs :
    (polledActs step events).map Act.stepCase =
      (calls setup.locc.port step events).map stepCaseOf :=
  map_stepCase_polledDrives events _

/-- **The polled driver, seen from outside**: after every run of calls and ticks from
    `loccSetup`, the state bytes that the host has been sent are whole cycles up to the
    last one, which names `state`; the data line rests high with the supply on, except that
    it rests low with the supply off after a power-down; every busy wait was one on a
    powered cylinder, and the busy waits have been those of the calls, in their order, where
    the half-bits of each opening are the telegram that `do_locc_step` sends. -/
theorem polled_driver_observed :
    ((∃ N, stateBytes step events <+: (List.replicate N
        [']'.toUInt8, '\x7b'.toUInt8, '\x7d'.toUInt8, '\x22'.toUInt8, '['.toUInt8]).flatten) ∧
      (driverAfter setup.locc.port step events).state =
        (((stateBytes step events).getLast?.map stateNamed).getD .sleep).number) ∧
    ((driverAfter setup.locc.port step events).locc.port.level,
        (driverAfter setup.locc.port step events).locc.port.powered) =
      restingPins ((calls setup.locc.port step events).getLast?.map stepCaseOf) ∧
    (∀ h ∈ (driverAfter setup.locc.port step events).locc.port.held, h.powered = true) ∧
    ((polledActs step events).map Act.stepCase =
        (calls setup.locc.port step events).map stepCaseOf ∧
      (driverAfter setup.locc.port step events).locc.port.held =
        (polledActs step events).flatMap fun a => heldBy a.behind a.stepCase) ∧
    ∀ a ∈ polledActs step events, a.stepCase = .openLocc →
      receive .high .low ((heldBy a.behind a.stepCase).map Held.level) =
        some ((openTelegram ++ [a.behind 0]).map fun x => x.toNat % 256) := by
  have hobserved := observed step events
  have hcalls := map_stepCase_polledActs step events
  refine ⟨⟨stateBytes_cycles step events, ?_⟩, ?_, hobserved.port.held, ⟨hcalls, hobserved.held⟩,
    fun a _ hopen => ?_⟩
  · obtain ⟨c, -, hstate, hnamed, -⟩ := hobserved.state
    rw [hstate, hnamed]
  · -- the last act is the last call
    rw [← List.getLast?_map, ← hcalls, List.getLast?_map]
    exact hobserved.port.pins
  · rw [hopen]
    exact receive_heldBy_openLocc a.behind

end Runs

end LoccFirmware.System
