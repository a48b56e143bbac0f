import LoccFirmware.Lock.Driver
import LoccFirmware.Automata.Sequencer

/-!
# The Polled Lock Driver

`locc.h` declares a second driver for the same cylinder.  `loccStartOpening` starts a
cycle, and `loccPoll`, called over and over, takes it on by `state_machine(++state)`
whenever `wait_ticks` has run out.  The state after the last one of the enumeration's
working states is `RESET`, for which `state_machine` calls itself and goes back to
`SLEEP`.

`++state` is an increment of an integer and nothing in C keeps it inside the
enumeration, so `state` is a number here, and the switch of `state_machine` has no
default.  As in the driver of `do_locc_step`, ticks that come during a call are on
either side of the point where it looks at `state` and `wait_ticks`, which are read and
written as a whole.
-/

namespace LoccFirmware.Lock

open LoccFirmware.Cylinder LoccFirmware.Automata

/-! ## State -/

/-- `enum locc_states`.  The name of `OPEN` is a keyword here. -/
inductive LoccStates where
  | sleep
  | powerup
  | awaken
  | opening
  | powerdown
  | reset
  deriving DecidableEq, Repr

/-- The value of an enumerator. -/
def LoccStates.number : LoccStates → ℕ
  | sleep => 0
  | powerup => 1
  | awaken => 2
  | opening => 3
  | powerdown => 4
  | reset => 5

/-- The functions that drive the cylinder. -/
inductive LoccAction where
  | powerupLocc
  | wakeupLocc
  | openLocc
  | powerdownLocc
  deriving DecidableEq, Repr

/-- `state`, and the globals both drivers share. -/
structure Polled where
  state : ℕ
  locc : Locc

/-- The ticks around the check that a call makes, and the words behind `openTelegram`. -/
structure Call extends Window where
  behind : ℕ → BitVec 16

/-! ## Functions -/

/-- What `state_machine` leaves behind: the new globals, the function it called on the
cylinder if any, and the bytes passed to `usb_putc`. -/
structure Ran where
  driver : Polled
  performed : Option LoccAction
  sent : List UInt8

/-- `state_machine`, interrupted `during` times before it writes `wait_ticks`. -/
def stateMachine (during : ℕ) (behind : ℕ → BitVec 16) (newState : ℕ) (d : Polled) : Ran :=
  let d := { d with state := newState }
  match newState with
  -- SLEEP
  | 0 =>
    let l := ticks during d.locc
    { driver := { d with locc := { l with waitTicks := 0 } }
      performed := none, sent := ['['.toUInt8] }
  -- POWERUP
  | 1 =>
    let l := ticks during { d.locc with port := powerupLocc d.locc.port }
    { driver := { d with locc := { l with waitTicks := 50 } }
      performed := some .powerupLocc, sent := [']'.toUInt8] }
  -- AWAKEN
  | 2 =>
    let l := ticks during { d.locc with port := wakeupLocc d.locc.port }
    { driver := { d with locc := { l with waitTicks := 59 } }
      performed := some .wakeupLocc, sent := ['\x7b'.toUInt8] }
  -- OPEN
  | 3 =>
    let l := ticks during { d.locc with port := (openLocc behind d.locc.port).port }
    { driver := { d with locc := { l with waitTicks := 10000 } }
      performed := some .openLocc, sent := ['\x7d'.toUInt8] }
  -- POWERDOWN
  | 4 =>
    let l := ticks during { d.locc with port := powerdownLocc d.locc.port }
    { driver := { d with locc := { l with waitTicks := 2 } }
      performed := some .powerdownLocc, sent := ['\x22'.toUInt8] }
  -- RESET
  | 5 => stateMachine during behind 0 d
  -- the switch has no default
  | _ => { driver := { d with locc := ticks during d.locc }, performed := none, sent := [] }
termination_by newState

/-- What a call shows: the state `state_machine` was called for if it was called, the
function called on the cylinder, and the bytes sent. -/
structure CallOutput where
  entered : Option ℕ
  performed : Option LoccAction
  sent : List UInt8
  deriving DecidableEq, Repr

/-- `loccStartOpening`. -/
def loccStartOpening (c : Call) (d : Polled) : Polled × CallOutput :=
  let d := { d with locc := ticks c.early d.locc }
  if d.state = 0 then
    let r := stateMachine c.late c.behind 1 d
    (r.driver, { entered := some 1, performed := r.performed, sent := '|'.toUInt8 :: r.sent })
  else
    ({ d with locc := ticks c.late d.locc }, { entered := none, performed := none, sent := [] })

/-- `loccPoll`. -/
def loccPoll (c : Call) (d : Polled) : Polled × CallOutput :=
  let d := { d with locc := ticks c.early d.locc }
  if d.state ≠ 0 ∧ d.locc.waitTicks = 0 then
    -- `++state`
    let d := { d with state := d.state + 1 }
    let r := stateMachine c.late c.behind d.state d
    (r.driver,
      { entered := some d.state, performed := r.performed, sent := '>'.toUInt8 :: r.sent })
  else
    ({ d with locc := ticks c.late d.locc },
      { entered := none, performed := none, sent := ['>'.toUInt8] })

/-! ## Runs -/

/-- What may happen to the driver: a tick outside of any call, or a call. -/
inductive PolledEvent where
  | tick
  | startOpening (c : Call)
  | poll (c : Call)

/-- The ticks of an event. -/
def PolledEvent.window : PolledEvent → Window
  | tick => { early := 1, late := 0 }
  | startOpening c => c.toWindow
  | poll c => c.toWindow

/-- The driver under any sequence of calls and ticks. -/
def polledDriver : Mealy Polled PolledEvent CallOutput where
  step d
    | .tick =>
      ({ d with locc := timerOverflow d.locc }, { entered := none, performed := none, sent := [] })
    | .startOpening c => loccStartOpening c d
    | .poll c => loccPoll c d

/-- The initial values of `state` and `wait_ticks`, with the port and `current_locc_step`
as they may be. -/
def initial (port : Port) (step : ℕ) : Polled where
  state := 0
  locc := { waitTicks := 0, currentLoccStep := step, port := port }

/-! ## The six cases as one -/

namespace LoccStates

/-- The state that `state_machine` ends in. -/
def settled : LoccStates → LoccStates
  | reset => sleep
  | c => c

/-- The value written to `wait_ticks`. -/
def wait : LoccStates → UInt32
  | sleep => 0
  | powerup => 50
  | awaken => 59
  | opening => 10000
  | powerdown => 2
  | reset => 0

/-- The function called on the cylinder. -/
def action : LoccStates → Option LoccAction
  | sleep => none
  | powerup => some .powerupLocc
  | awaken => some .wakeupLocc
  | opening => some .openLocc
  | powerdown => some .powerdownLocc
  | reset => none

/-- The byte sent to the host. -/
def byte : LoccStates → UInt8
  | sleep => '['.toUInt8
  | powerup => ']'.toUInt8
  | awaken => '\x7b'.toUInt8
  | opening => '\x7d'.toUInt8
  | powerdown => '\x22'.toUInt8
  | reset => '['.toUInt8

end LoccStates

/-- What a function does to the port. -/
def LoccAction.drive (behind : ℕ → BitVec 16) : LoccAction → Port → Port
  | powerupLocc, p => Cylinder.powerupLocc p
  | wakeupLocc, p => Cylinder.wakeupLocc p
  | openLocc, p => (Cylinder.openLocc behind p).port
  | powerdownLocc, p => Cylinder.powerdownLocc p

/-- **One state**: its action drives the port, its wait is set, and `RESET` ends in
    `SLEEP`; ticks on the way leave no trace. -/
theorem stateMachine_eq (during : ℕ) (behind : ℕ → BitVec 16) (c : LoccStates) (d : Polled) :
    stateMachine during behind c.number d =
      { driver :=
          { state := c.settled.number
            locc := { waitTicks := c.wait, currentLoccStep := d.locc.currentLoccStep,
                      port := c.action.elim d.locc.port fun a => a.drive behind d.locc.port } }
        performed := c.action, sent := [c.byte] } := by
  have hticks (l : Locc) (w : UInt32) : { ticks during l with waitTicks := w } =
      { l with waitTicks := w } := by
    simp
  cases c with
  | reset =>
    -- the call inside the call, in the state `RESET`
    rw [LoccStates.number, stateMachine, stateMachine]
    simp only [hticks]
    rfl
  | _ =>
    rw [LoccStates.number, stateMachine]
    simp only [hticks]
    rfl

/-! ## Calls -/

section Calls

variable (c : Call) {d : Polled}

/-- `loccStartOpening` in `SLEEP` powers the cylinder up. -/
theorem loccStartOpening_of_sleep (hsleep : d.state = 0) :
    loccStartOpening c d =
      ({ state := 1
         locc := { waitTicks := 50, currentLoccStep := d.locc.currentLoccStep,
                   port := powerupLocc d.locc.port } },
       { entered := some 1, performed := some .powerupLocc,
         sent := ['|'.toUInt8, ']'.toUInt8] }) := by
  have hrun := stateMachine_eq c.late c.behind .powerup { d with locc := ticks c.early d.locc }
  simp only [ticks_currentLoccStep, ticks_port] at hrun
  simp only [loccStartOpening, if_pos hsleep]
  rw [show (1 : ℕ) = LoccStates.powerup.number from rfl, hrun]
  rfl

/-- In any other state it changes nothing: the timer runs on, and no more. -/
theorem loccStartOpening_of_ne_sleep (hbusy : d.state ≠ 0) :
    loccStartOpening c d =
      ({ d with locc := ticks (c.early + c.late) d.locc },
       { entered := none, performed := none, sent := [] }) := by
  simp only [loccStartOpening, if_neg hbusy, ticks_add]

/-- What `loccPoll` looks at. -/
theorem loccPoll_check :
    (d.state ≠ 0 ∧ (ticks c.early d.locc).waitTicks = 0) ↔
      d.state ≠ 0 ∧ d.locc.waitTicks.toNat ≤ c.early := by
  rw [← UInt32.toNat_inj, ticks_waitTicks]
  exact and_congr_right fun _ => Nat.sub_eq_zero_iff_le

/-- A poll that finds the timer expired goes on to the next state. -/
theorem loccPoll_of_expired (hbusy : d.state ≠ 0) (hexp : d.locc.waitTicks.toNat ≤ c.early)
    {next : LoccStates} (hnext : d.state + 1 = next.number) :
    loccPoll c d =
      ({ state := next.settled.number
         locc := { waitTicks := next.wait, currentLoccStep := d.locc.currentLoccStep,
                   port := next.action.elim d.locc.port fun a => a.drive c.behind d.locc.port } },
       { entered := some next.number, performed := next.action,
         sent := ['>'.toUInt8, next.byte] }) := by
  simp only [loccPoll, if_pos ((loccPoll_check c).mpr ⟨hbusy, hexp⟩), hnext, stateMachine_eq,
    ticks_currentLoccStep, ticks_port]

/-- Otherwise it only reports itself. -/
theorem loccPoll_of_running (hrunning : ¬ (d.state ≠ 0 ∧ d.locc.waitTicks.toNat ≤ c.early)) :
    loccPoll c d =
      ({ d with locc := ticks (c.early + c.late) d.locc },
       { entered := none, performed := none, sent := ['>'.toUInt8] }) := by
  simp only [loccPoll, if_neg ((not_congr (loccPoll_check c)).mpr hrunning), ticks_add]

end Calls

end LoccFirmware.Lock
