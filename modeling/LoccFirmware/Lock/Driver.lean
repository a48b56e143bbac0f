import LoccFirmware.Cylinder.Telegram

/-!
# The Lock Driver

`locc.c` opens the lock in four steps with a wait after each.  `do_next_locc_step` is
called once per frame while an opening is under way; it does nothing until the countdown
`wait_ticks` has run out, and the timer interrupt counts that down behind its back.

An interrupt can come at any point of a frame, but it only touches `wait_ticks`, so what
matters is on which side of the timer check and of `set_wait_time` it comes.  Hence the
number of ticks between these two points is a parameter of `do_locc_step` (sending a
telegram takes about 72 ms, many ticks long); `wait_ticks` is read and written as a whole.
-/

namespace LoccFirmware.Lock

open LoccFirmware.Cylinder

/-! ## State and timer -/

/-- The globals of `locc.c` that the step functions use, and the port they drive. -/
structure Locc where
  waitTicks : UInt32
  currentLoccStep : ℕ
  port : Port

/-- `ISR(TIMER0_OVF_vect)`. -/
def timerOverflow (l : Locc) : Locc :=
  if l.waitTicks > 0 then { l with waitTicks := l.waitTicks - 1 } else l

/-- A number of timer interrupts. -/
def ticks : ℕ → Locc → Locc
  | 0, l => l
  | n + 1, l => ticks n (timerOverflow l)

/-- `timer_is_expired`. -/
def timerIsExpired (l : Locc) : Bool :=
  if l.waitTicks > 0 then false else true

/-- `set_wait_time`. -/
def setWaitTime (millis : UInt32) (l : Locc) : Locc :=
  { l with waitTicks := millis }

/-! ## Steps -/

/-- The cases of `do_locc_step`, named after the function each calls; the first one, the
"safe state for the beginning", calls none. -/
inductive StepCase where
  | safeState
  | wakeupLocc
  | openLocc
  | powerdownLocc
  | powerupLocc
  deriving DecidableEq, Repr

/-- `start_locking`. -/
def startLocking (l : Locc) : Locc :=
  { l with currentLoccStep := 1 }

/-- `do_locc_step`, interrupted `during` times before `set_wait_time`, and the case it
ran. -/
def doLoccStep (during : ℕ) (behind : ℕ → BitVec 16) (l : Locc) : Locc × Option StepCase :=
  match l.currentLoccStep with
  -- restarts the cycle by itself if it is ever run
  | 0 =>
    let l := setWaitTime 0 (ticks during l)
    ({ l with currentLoccStep := 1 }, some .safeState)
  -- wake the cylinder up
  | 1 =>
    let l := ticks during { l with port := wakeupLocc l.port }
    let l := { l with currentLoccStep := 2 }
    (setWaitTime 59 l, some .wakeupLocc)
  -- open, and leave it open
  | 2 =>
    let l := ticks during { l with port := (openLocc behind l.port).port }
    let l := setWaitTime 15000 l
    ({ l with currentLoccStep := 3 }, some .openLocc)
  -- switch the power off, which closes it
  | 3 =>
    let l := ticks during { l with port := powerdownLocc l.port }
    let l := setWaitTime 5000 l
    ({ l with currentLoccStep := 4 }, some .powerdownLocc)
  -- switch it on again and charge the capacitor
  | 4 =>
    let l := ticks during { l with port := powerupLocc l.port }
    let l := setWaitTime 5000 l
    ({ l with currentLoccStep := 0 }, some .powerupLocc)
  -- the switch has no default
  | _ => (ticks during l, none)

/-- A case that was run and the port as it found it. -/
structure Performed where
  stepCase : StepCase
  entry : Port

/-- What one call of `do_next_locc_step` leaves behind: the new globals, the case that was
run if any, the bytes passed to `usb_putc` and the returned value. -/
structure Stepped where
  locc : Locc
  performed : Option Performed
  sent : List UInt8
  again : Bool

/-- `do_next_locc_step`. -/
def doNextLoccStep (during : ℕ) (behind : ℕ → BitVec 16) (l : Locc) : Stepped :=
  let step := if timerIsExpired l then doLoccStep during behind l else (ticks during l, none)
  let performed := step.2.map fun c => { stepCase := c, entry := l.port : Performed }
  if step.1.currentLoccStep > 0 then
    { locc := step.1, performed := performed, sent := [], again := true }
  else
    { locc := step.1, performed := performed, sent := ['.'.toUInt8], again := false }

/-! ## The timer -/

section Timer

variable (l : Locc)

theorem gt_zero_iff_toNat (w : UInt32) : w > 0 ↔ 0 < w.toNat := UInt32.lt_iff_toNat_lt

theorem timerOverflow_waitTicks : (timerOverflow l).waitTicks.toNat = l.waitTicks.toNat - 1 := by
  unfold timerOverflow
  split
  · rename_i h
    exact UInt32.toNat_sub_of_le _ _ (UInt32.le_iff_toNat_le.mpr ((gt_zero_iff_toNat _).mp h))
  · rename_i h
    rw [gt_zero_iff_toNat] at h
    omega

@[simp] theorem timerOverflow_currentLoccStep :
    (timerOverflow l).currentLoccStep = l.currentLoccStep := by
  unfold timerOverflow
  split <;> rfl

@[simp] theorem timerOverflow_port : (timerOverflow l).port = l.port := by
  unfold timerOverflow
  split <;> rfl

theorem ticks_waitTicks (n : ℕ) : (ticks n l).waitTicks.toNat = l.waitTicks.toNat - n := by
  induction n generalizing l with
  | zero => rfl
  | succ n ih =>
    rw [ticks, ih, timerOverflow_waitTicks]
    omega

@[simp] theorem ticks_currentLoccStep (n : ℕ) :
    (ticks n l).currentLoccStep = l.currentLoccStep := by
  induction n generalizing l with
  | zero => rfl
  | succ n ih => rw [ticks, ih, timerOverflow_currentLoccStep]

@[simp] theorem ticks_port (n : ℕ) : (ticks n l).port = l.port := by
  induction n generalizing l with
  | zero => rfl
  | succ n ih => rw [ticks, ih, timerOverflow_port]

theorem ticks_add (m n : ℕ) : ticks (m + n) l = ticks n (ticks m l) := by
  induction m generalizing l with
  | zero => rw [Nat.zero_add]; rfl
  | succ m ih => rw [Nat.succ_add, ticks, ih, ticks]

theorem timerIsExpired_iff : timerIsExpired l = true ↔ l.waitTicks.toNat = 0 := by
  unfold timerIsExpired
  split
  · rename_i h
    rw [gt_zero_iff_toNat] at h
    simp only [Bool.false_eq_true, false_iff]
    omega
  · rename_i h
    rw [gt_zero_iff_toNat] at h
    simp only [true_iff]
    omega

end Timer

/-! ## The five cases as one -/

namespace StepCase

/-- The label of a case. -/
def number : StepCase → ℕ
  | safeState => 0
  | wakeupLocc => 1
  | openLocc => 2
  | powerdownLocc => 3
  | powerupLocc => 4

/-- What a case does to the port. -/
def drive (behind : ℕ → BitVec 16) : StepCase → Port → Port
  | safeState, p => p
  | wakeupLocc, p => Cylinder.wakeupLocc p
  | openLocc, p => (Cylinder.openLocc behind p).port
  | powerdownLocc, p => Cylinder.powerdownLocc p
  | powerupLocc, p => Cylinder.powerupLocc p

/-- The argument of `set_wait_time` in a case. -/
def wait : StepCase → UInt32
  | safeState => 0
  | wakeupLocc => 59
  | openLocc => 15000
  | powerdownLocc => 5000
  | powerupLocc => 5000

end StepCase

theorem exists_stepCase {k : ℕ} (hk : k < 5) : ∃ c : StepCase, c.number = k := by
  match k, hk with
  | 0, _ => exact ⟨.safeState, rfl⟩
  | 1, _ => exact ⟨.wakeupLocc, rfl⟩
  | 2, _ => exact ⟨.openLocc, rfl⟩
  | 3, _ => exact ⟨.powerdownLocc, rfl⟩
  | 4, _ => exact ⟨.powerupLocc, rfl⟩

/-- **One step**: the case of that number drives the port, sets its wait, and moves on to
    the next number, the last one back to 0; ticks on the way leave no trace. -/
theorem doLoccStep_eq (during : ℕ) (behind : ℕ → BitVec 16) {l : Locc} {c : StepCase}
    (hc : l.currentLoccStep = c.number) :
    doLoccStep during behind l =
      ({ waitTicks := c.wait, currentLoccStep := (c.number + 1) % 5,
         port := c.drive behind l.port }, some c) := by
  unfold doLoccStep
  rw [hc]
  cases c <;> simp [StepCase.number, StepCase.wait, StepCase.drive, setWaitTime]

/-- A call that finds the timer expired runs one case; only the last one ends the
    opening. -/
theorem doNextLoccStep_of_expired (during : ℕ) (behind : ℕ → BitVec 16) {l : Locc}
    {c : StepCase} (hexp : timerIsExpired l = true) (hc : l.currentLoccStep = c.number) :
    doNextLoccStep during behind l =
      { locc := { waitTicks := c.wait, currentLoccStep := (c.number + 1) % 5,
                  port := c.drive behind l.port }
        performed := some { stepCase := c, entry := l.port }
        sent := if c = .powerupLocc then ['.'.toUInt8] else []
        again := decide (c ≠ .powerupLocc) } := by
  simp only [doNextLoccStep, if_pos hexp, doLoccStep_eq during behind hc]
  cases c <;> rfl

/-- A call that finds it running leaves everything to the interrupt. -/
theorem doNextLoccStep_of_running (during : ℕ) (behind : ℕ → BitVec 16) {l : Locc}
    (hexp : ¬ timerIsExpired l = true) (hstep : 0 < l.currentLoccStep) :
    doNextLoccStep during behind l =
      { locc := ticks during l, performed := none, sent := [], again := true } := by
  simp only [doNextLoccStep, if_neg hexp, ticks_currentLoccStep]
  rw [if_pos hstep]
  rfl

end LoccFirmware.Lock
