import LoccFirmware.Automata.SequencerTiming
import LoccFirmware.Protocol.Parser
import LoccFirmware.Input.Dial
import LoccFirmware.Input.Keypad
import LoccFirmware.Lock.Driver

/-!
# The Main Loop

`main` calls `setup` and then `loop` forever; the timer interrupt is the only other
thing that runs.  So the firmware is a machine that reads one event at a time: a frame,
with the byte that was received, if any, and the pins that were sampled, or a timer
tick between two frames.  Ticks within a frame are part of its input.

The USB stack delivers and takes bytes and is assumed to leave port D alone; it appears
as the `received` and `sent` bytes only.

## Main definitions

- `Machine`, `setup`: the state of the firmware and its value after `setup`
- `loop`: one frame
- `firmware`: the machine
-/

namespace LoccFirmware.System

open LoccFirmware.Automata LoccFirmware.Protocol LoccFirmware.Cylinder LoccFirmware.Input
open LoccFirmware.Lock

/-! ## State -/

/-- Everything that lives from one frame to the next. -/
structure Machine where
  isLocking : Bool
  locc : Locc
  parser : Parser
  keypad : Keypad
  dial : Dial

/-- Port D after reset. -/
def resetPort : Port where
  portd := 0
  ddrd := 0
  held := []

/-- `keypad_setup`. -/
def keypadSetup (p : Port) : Port :=
  { p with portd := p.portd ||| (0xF : UInt8) <<< 0 }

/-- `setup`, from reset.  Of the registers it writes only those of port D are modelled;
`dial_setup` writes port C. -/
def setup : Machine :=
  -- RCLK is an output and high before the others come
  let p := { resetPort with ddrd := resetPort.ddrd ||| 0x10 }
  let p := { p with portd := p.portd ||| 0x10 }
  let p := loccSetup p
  let p := keypadSetup p
  { isLocking := false
    locc := { waitTicks := 0, currentLoccStep := 0, port := p }
    parser := Parser.initial
    keypad := Keypad.reset
    dial := Dial.reset }

/-! ## One frame -/

/-- What the environment does during one frame: the byte received, the two ports read,
the timer interrupts before the timer check and those between it and the end of the
lock's step, and the words behind `openTelegram` in memory. -/
structure FrameInput where
  received : Option UInt8
  pind : UInt8
  pinc : UInt8
  ticksBeforeCheck : ℕ
  ticksDuringStep : ℕ
  behind : ℕ → BitVec 16

/-- What a frame shows: the value of `command`, whether it was accepted as an opening,
`is_locking` when the lock's turn came, the case of `do_locc_step` that was run, the
byte written to `SPDR`, and the bytes passed to `usb_putc`. -/
structure FrameOutput where
  command : ℕ
  accepted : Bool
  locking : Bool
  performed : Option Performed
  spdr : UInt8
  sent : List UInt8

/-- The call of `handle_user_input`, made only if a byte was received. -/
def handleReceived : Option UInt8 → Parser → Handled
  | none, p => { parser := p, command := 0, sent := [] }
  | some c, p => handleUserInput c p

/-- `if (!is_locking && command == 1)`: the command starts an opening. -/
def acceptCommand (command : ℕ) (m : Machine) : Machine × Bool :=
  if !m.isLocking && command == 1 then
    ({ m with isLocking := true, locc := startLocking m.locc }, true)
  else (m, false)

/-- `if (is_locking)`: the lock's turn, with the bytes it sends. -/
def driveLock (f : FrameInput) (m : Machine) : Machine × Option Performed × List UInt8 :=
  if m.isLocking then
    let stepped := doNextLoccStep f.ticksDuringStep f.behind m.locc
    ({ m with isLocking := stepped.again, locc := stepped.locc }, stepped.performed, stepped.sent)
  else
    ({ m with locc := ticks f.ticksDuringStep m.locc }, none, [])

/-- `shiftreg_out`: the byte for the shift register and the pulse on its latch clock. -/
def shiftregOut (m : Machine) : Machine × UInt8 :=
  -- `&` binds tighter than `|`: the LEDs in the low bits, the rows, inverted, above
  let spdr := m.parser.ledStates ||| (0xF0 &&& ~~~m.keypad.matrixSelector)
  let p := m.locc.port
  let p := { p with portd := p.portd &&& ~~~0x10 }
  let p := { p with portd := p.portd ||| 0x10 }
  ({ m with locc := { m.locc with port := p } }, spdr)

/-- `if(c) usb_putc(c)`. -/
def putcNonzero (c : UInt8) : List UInt8 :=
  if c ≠ 0 then [c] else []

/-- `loop`. -/
def loop (f : FrameInput) (m : Machine) : Machine × FrameOutput :=
  -- interrupts touch `wait_ticks` only, so those before the check may all come first
  let handled := handleReceived f.received m.parser
  let m := { m with parser := handled.parser, locc := ticks f.ticksBeforeCheck m.locc }
  let turn := acceptCommand handled.command m
  let driven := driveLock f turn.1
  -- interrupts from here on are ticks between this frame and the next
  let pressed := keypadScan f.pind driven.1.keypad
  let dialled := dialScan f.pinc driven.1.dial
  let shifted := shiftregOut { driven.1 with keypad := pressed.1, dial := dialled.1 }
  (shifted.1,
    { command := handled.command
      accepted := turn.2
      locking := turn.1.isLocking
      performed := driven.2.1
      spdr := shifted.2
      sent := handled.sent ++ (if turn.2 then ['O'.toUInt8] else []) ++ driven.2.2 ++
        putcNonzero pressed.2 ++ putcNonzero dialled.2 })

/-! ## Events -/

/-- A frame, or a timer interrupt between two frames. -/
inductive Event where
  | tick
  | frame (f : FrameInput)

/-- The timer interrupts of an event, before and after its timer check. -/
def Event.window : Event → Window
  | .tick => { early := 1, late := 0 }
  | .frame f => { early := f.ticksBeforeCheck, late := f.ticksDuringStep }

/-- The firmware; a tick shows nothing. -/
def firmware : Mealy Machine Event (Option FrameOutput) where
  step m
    | .tick => ({ m with locc := timerOverflow m.locc }, none)
    | .frame f => ((loop f m).1, some (loop f m).2)

/-! ## The lock's part of a frame

What `loop` does to the lock is one accepted command at most and one turn at most; the
scans do not touch it and `shiftreg_out` touches the latch clock only. -/

section LockPart

variable (f : FrameInput) (m : Machine)

/-- The machine when the lock's turn comes. -/
def beforeTurn : Machine × Bool :=
  acceptCommand (handleReceived f.received m.parser).command
    { m with parser := (handleReceived f.received m.parser).parser,
             locc := ticks f.ticksBeforeCheck m.locc }

/-- A command is accepted exactly outside an opening; otherwise only the parser and the
    timer have moved. -/
theorem beforeTurn_cases :
    (m.isLocking = false ∧ (handleReceived f.received m.parser).command = 1 ∧
      beforeTurn f m =
        ({ m with parser := (handleReceived f.received m.parser).parser, isLocking := true,
                  locc := startLocking (ticks f.ticksBeforeCheck m.locc) }, true)) ∨
    (¬ (m.isLocking = false ∧ (handleReceived f.received m.parser).command = 1) ∧
      beforeTurn f m =
        ({ m with parser := (handleReceived f.received m.parser).parser,
                  locc := ticks f.ticksBeforeCheck m.locc }, false)) := by
  by_cases h : m.isLocking = false ∧ (handleReceived f.received m.parser).command = 1
  · exact Or.inl ⟨h.1, h.2, by simp [beforeTurn, acceptCommand, h.1, h.2]⟩
  · refine Or.inr ⟨h, ?_⟩
    have hcond : ¬ (!m.isLocking && (handleReceived f.received m.parser).command == 1) = true := by
      simpa using h
    rw [beforeTurn, acceptCommand, if_neg hcond]

/-- The lock's turn runs one case of `do_locc_step`, or leaves everything to the timer. -/
theorem driveLock_cases (hlt : m.locc.currentLoccStep < 5)
    (hpos : m.isLocking = true → 0 < m.locc.currentLoccStep) :
    (∃ c, m.isLocking = true ∧ timerIsExpired m.locc = true ∧
      m.locc.currentLoccStep = c.number ∧
      driveLock f m =
        ({ m with isLocking := decide (c ≠ .powerupLocc)
                  locc := { waitTicks := c.wait, currentLoccStep := (c.number + 1) % 5,
                            port := c.drive f.behind m.locc.port } },
          some { stepCase := c, entry := m.locc.port },
          if c = .powerupLocc then ['.'.toUInt8] else [])) ∨
    (¬ (m.isLocking = true ∧ timerIsExpired m.locc = true) ∧
      driveLock f m = ({ m with locc := ticks f.ticksDuringStep m.locc }, none, [])) := by
  by_cases hlock : m.isLocking = true
  · by_cases hexp : timerIsExpired m.locc = true
    -- the switch has a case for every number that occurs
    · obtain ⟨c, hc⟩ := exists_stepCase hlt
      refine Or.inl ⟨c, hlock, hexp, hc.symm, ?_⟩
      rw [driveLock, if_pos hlock, doNextLoccStep_of_expired _ _ hexp hc.symm]
    · -- `is_locking` is written back as it was
      refine Or.inr ⟨fun h => hexp h.2, ?_⟩
      rw [driveLock, if_pos hlock, doNextLoccStep_of_running _ _ hexp (hpos hlock), ← hlock]
  · refine Or.inr ⟨fun h => hlock h.1, ?_⟩
    rw [driveLock, if_neg hlock]

theorem loop_isLocking : (loop f m).1.isLocking = (driveLock f (beforeTurn f m).1).1.isLocking :=
  rfl

theorem loop_waitTicks :
    (loop f m).1.locc.waitTicks = (driveLock f (beforeTurn f m).1).1.locc.waitTicks :=
  rfl

theorem loop_currentLoccStep :
    (loop f m).1.locc.currentLoccStep =
      (driveLock f (beforeTurn f m).1).1.locc.currentLoccStep :=
  rfl

theorem loop_port :
    (loop f m).1.locc.port =
      { (driveLock f (beforeTurn f m).1).1.locc.port with
        portd := (driveLock f (beforeTurn f m).1).1.locc.port.portd &&& ~~~0x10 ||| 0x10 } :=
  rfl

theorem loop_accepted : (loop f m).2.accepted = (beforeTurn f m).2 := rfl

/-- A frame accepts a command exactly if it has one and finds no opening under way. -/
theorem loop_accepted_iff :
    (loop f m).2.accepted = true ↔ (loop f m).2.command = 1 ∧ m.isLocking = false := by
  have hcommand : (loop f m).2.command = (handleReceived f.received m.parser).command := rfl
  rw [loop_accepted, hcommand]
  rcases beforeTurn_cases f m with ⟨hidle, hone, hturn⟩ | ⟨hno, hturn⟩
  · rw [hturn]
    exact ⟨fun _ => ⟨hone, hidle⟩, fun _ => rfl⟩
  · rw [hturn]
    exact ⟨fun h => absurd h Bool.false_ne_true, fun h => absurd ⟨h.2, h.1⟩ hno⟩

theorem loop_locking : (loop f m).2.locking = (beforeTurn f m).1.isLocking := rfl

theorem loop_performed : (loop f m).2.performed = (driveLock f (beforeTurn f m).1).2.1 := rfl

end LockPart

end LoccFirmware.System
