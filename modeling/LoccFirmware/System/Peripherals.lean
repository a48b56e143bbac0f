import LoccFirmware.Input.KeypadDebounce
import LoccFirmware.Input.HookSwitch
import LoccFirmware.System.Loop

/-!
# The Parts of the Main Loop

`loop` calls the parser, the lock, the keypad and the dial one after the other.  The
parser, the keypad and the dial keep their state to themselves, so along every run each
of them is where its own inputs alone would have taken it: the parser the bytes received,
the keypad the samples of port D, the dial those of port C.  The number of frames, the
timer and the other parts do not matter.
-/

namespace LoccFirmware.System

open LoccFirmware.Automata LoccFirmware.Protocol LoccFirmware.Input

/-! ## Inputs of the parts -/

/-- The byte received in an event. -/
def Event.received : Event → Option UInt8
  | .tick => none
  | .frame f => f.received

/-- The sample of port D taken in an event. -/
def Event.pind : Event → Option UInt8
  | .tick => none
  | .frame f => some f.pind

/-- The sample of port C taken in an event. -/
def Event.pinc : Event → Option UInt8
  | .tick => none
  | .frame f => some f.pinc

/-- The bytes received in a run. -/
def received (events : List Event) : List UInt8 :=
  events.filterMap Event.received

/-! ## One frame -/

section Frame

variable (f : FrameInput) (m : Machine)

/-- Accepting a command is a matter of the lock. -/
theorem acceptCommand_parts (command : ℕ) :
    (acceptCommand command m).1.parser = m.parser ∧
      (acceptCommand command m).1.keypad = m.keypad ∧
      (acceptCommand command m).1.dial = m.dial := by
  unfold acceptCommand
  split <;> exact ⟨rfl, rfl, rfl⟩

theorem driveLock_parts :
    (driveLock f m).1.parser = m.parser ∧ (driveLock f m).1.keypad = m.keypad ∧
      (driveLock f m).1.dial = m.dial := by
  unfold driveLock
  split <;> exact ⟨rfl, rfl, rfl⟩

theorem beforeTurn_parts :
    (beforeTurn f m).1.parser = (handleReceived f.received m.parser).parser ∧
      (beforeTurn f m).1.keypad = m.keypad ∧ (beforeTurn f m).1.dial = m.dial :=
  acceptCommand_parts _ _

theorem parser_loop : (loop f m).1.parser = (handleReceived f.received m.parser).parser :=
  (driveLock_parts f (beforeTurn f m).1).1.trans (beforeTurn_parts f m).1

theorem keypad_loop : (loop f m).1.keypad = (keypadScan f.pind m.keypad).1 := by
  -- the scan comes after the lock's turn, which leaves the keypad as it was
  have hkeypad : (driveLock f (beforeTurn f m).1).1.keypad = m.keypad :=
    (driveLock_parts f (beforeTurn f m).1).2.1.trans (beforeTurn_parts f m).2.1
  rw [← hkeypad]
  simp only [loop, beforeTurn, shiftregOut]

theorem dial_loop : (loop f m).1.dial = (dialScan f.pinc m.dial).1 := by
  have hdial : (driveLock f (beforeTurn f m).1).1.dial = m.dial :=
    (driveLock_parts f (beforeTurn f m).1).2.2.trans (beforeTurn_parts f m).2.2
  rw [← hdial]
  simp only [loop, beforeTurn, shiftregOut]

/-- The lock's turn sends a `.` or nothing. -/
theorem driveLock_says : (driveLock f m).2.2 = [] ∨ (driveLock f m).2.2 = ['.'.toUInt8] := by
  have hstep : (Lock.doNextLoccStep f.ticksDuringStep f.behind m.locc).sent = [] ∨
      (Lock.doNextLoccStep f.ticksDuringStep f.behind m.locc).sent = ['.'.toUInt8] := by
    simp only [Lock.doNextLoccStep]
    generalize (if Lock.timerIsExpired m.locc = true then
      Lock.doLoccStep f.ticksDuringStep f.behind m.locc
      else (Lock.ticks f.ticksDuringStep m.locc, none)) = step
    split
    · exact Or.inl rfl
    · exact Or.inr rfl
  unfold driveLock
  split
  · exact hstep
  · exact Or.inl rfl

/-- The bytes a frame sends, in their order. -/
theorem loop_sent :
    (loop f m).2.sent =
      (handleReceived f.received m.parser).sent ++
        (if (beforeTurn f m).2 then ['O'.toUInt8] else []) ++
        (driveLock f (beforeTurn f m).1).2.2 ++
        putcNonzero (keypadScan f.pind m.keypad).2 ++
        putcNonzero (dialScan f.pinc m.dial).2 := by
  have hkeypad : (driveLock f (beforeTurn f m).1).1.keypad = m.keypad :=
    (driveLock_parts f (beforeTurn f m).1).2.1.trans (beforeTurn_parts f m).2.1
  have hdial : (driveLock f (beforeTurn f m).1).1.dial = m.dial :=
    (driveLock_parts f (beforeTurn f m).1).2.2.trans (beforeTurn_parts f m).2.2
  rw [← hkeypad, ← hdial]
  rfl

/-- The byte a frame latches, from the parser and the keypad as it leaves them. -/
theorem loop_spdr :
    (loop f m).2.spdr =
      (loop f m).1.parser.ledStates ||| (0xF0 &&& ~~~(loop f m).1.keypad.matrixSelector) := by
  simp only [loop, shiftregOut]

end Frame

/-! ## Whole runs -/

section Runs

variable (events : List Event)

theorem parser_run : (firmware.run setup events).parser = parse (received events) := by
  refine Mealy.run_filterMap (M := firmware) (N := parser) (f := Machine.parser)
    (fun m e => ?_) setup events
  cases e with
  | tick => rfl
  | frame f =>
    show (loop f m).1.parser = _
    rw [parser_loop, Event.received]
    -- without a byte `handle_user_input` is not called
    cases f.received with
    | none => rfl
    | some c => rfl

theorem keypad_run :
    (firmware.run setup events).keypad = keypad.run Keypad.reset (events.filterMap Event.pind) := by
  refine Mealy.run_filterMap (M := firmware) (N := keypad) (f := Machine.keypad)
    (fun m e => ?_) setup events
  cases e with
  | tick => rfl
  | frame f => exact keypad_loop f m

/-- `row` and `matrix_selector` always name the same row. -/
theorem keypad_run_atRow : ∃ r, (firmware.run setup events).keypad.AtRow r := by
  rw [keypad_run]
  exact ⟨_, keypad_atRow _⟩

theorem dial_run :
    (firmware.run setup events).dial = scanned (events.filterMap Event.pinc) := by
  refine Mealy.run_filterMap (M := firmware) (N := dial) (f := Machine.dial)
    (fun m e => ?_) setup events
  cases e with
  | tick => rfl
  | frame f => exact dial_loop f m

end Runs

end LoccFirmware.System
