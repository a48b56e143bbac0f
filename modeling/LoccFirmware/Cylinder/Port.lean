import LoccFirmware.Coding.Masks

/-!
# Port D and the Cylinder's Pins

The lock cylinder hangs on two pins of port D: its data line on pin 5 and its
supply, switched by a photocoupler, on pin 6.  The same port carries the keypad
columns (pins 0 to 3) and the latch clock of the shift register (pin 4), so every
function below reads, modifies and writes two registers it shares with others.

`Port` holds these registers and, as the record of what was seen from outside, one
entry for every busy wait: the level of the data line while the program stood still.
-/

namespace LoccFirmware.Cylinder

/-! ## Registers -/

/-- The level of the data line. -/
inductive Level where
  | high
  | low
  | floating
  deriving DecidableEq, Repr

/-- One busy wait: how the pins stood during it and how long it took, in units of
10 µs. -/
structure Held where
  level : Level
  powered : Bool
  delay : UInt8
  deriving DecidableEq, Repr

/-- `PORTD`, `DDRD` and the busy waits so far, oldest first. -/
structure Port where
  portd : UInt8
  ddrd : UInt8
  held : List Held
  deriving DecidableEq, Repr

/-- `1 << CYLINDER_IO_PIN`. -/
def ioMask : UInt8 := (1 : UInt8) <<< 5

/-- `1 << CYLINDER_VCC_PIN`. -/
def vccMask : UInt8 := (1 : UInt8) <<< 6

/-- The data line: an output pin shows its `PORTD` bit, an input pin is pulled high when
that bit switches the pull-up on, and floats otherwise. -/
def Port.level (p : Port) : Level :=
  if p.ddrd &&& ioMask = 0 then
    if p.portd &&& ioMask = 0 then .floating else .high
  else
    if p.portd &&& ioMask = 0 then .low else .high

/-- The supply is on: its pin is an output and driven high. -/
def Port.powered (p : Port) : Bool :=
  decide (p.ddrd &&& vccMask ≠ 0) && decide (p.portd &&& vccMask ≠ 0)

/-- `systemDelay10us`. -/
def systemDelay10us (value : UInt8) (p : Port) : Port :=
  { p with held := p.held ++ [⟨p.level, p.powered, value⟩] }

/-- The two writes under each comment "generate logical HIGH". -/
def generateHigh (p : Port) : Port :=
  { p with ddrd := p.ddrd &&& ~~~ioMask, portd := p.portd ||| ioMask }

/-- The two writes under each comment "generate logical LOW". -/
def generateLow (p : Port) : Port :=
  { p with ddrd := p.ddrd ||| ioMask, portd := p.portd &&& ~~~ioMask }

/-! ## Power and wake-up -/

/-- `CYLINDER_TELEGRAM_TIMING_DELAY`. -/
def cylinderTelegramTimingDelay : UInt8 := 50

/-- `powerdown_locc`: the data line is driven low first, so that it cannot feed the
cylinder. -/
def powerdownLocc (p : Port) : Port :=
  let p := { p with ddrd := p.ddrd ||| ioMask }
  let p := { p with portd := p.portd &&& ~~~ioMask }
  { p with portd := p.portd &&& ~~~vccMask }

/-- `powerup_locc`. -/
def powerupLocc (p : Port) : Port :=
  let p := { p with ddrd := p.ddrd &&& ~~~ioMask }
  let p := { p with portd := p.portd ||| ioMask }
  { p with portd := p.portd ||| vccMask }

/-- `wakeup_locc`. -/
def wakeupLocc (p : Port) : Port :=
  let p := systemDelay10us cylinderTelegramTimingDelay (generateHigh p)
  let p := systemDelay10us (2 * cylinderTelegramTimingDelay) (generateLow p)
  generateHigh p

/-- The port writes of `loccSetup`; the timer it starts is modelled by its ticks. -/
def loccSetup (p : Port) : Port :=
  let p := { p with ddrd := p.ddrd &&& ~~~ioMask }
  let p := { p with portd := p.portd ||| ioMask }
  let p := { p with ddrd := p.ddrd ||| vccMask }
  let p := { p with portd := p.portd &&& ~~~vccMask }
  powerupLocc p

/-! ## The pins under each function -/

section Pins

open LoccFirmware.Coding

variable (p : Port)

@[simp] theorem systemDelay10us_held (v : UInt8) :
    (systemDelay10us v p).held = p.held ++ [⟨p.level, p.powered, v⟩] := rfl

@[simp] theorem systemDelay10us_portd (v : UInt8) : (systemDelay10us v p).portd = p.portd := rfl

@[simp] theorem systemDelay10us_ddrd (v : UInt8) : (systemDelay10us v p).ddrd = p.ddrd := rfl

@[simp] theorem systemDelay10us_level (v : UInt8) : (systemDelay10us v p).level = p.level := rfl

@[simp] theorem systemDelay10us_powered (v : UInt8) :
    (systemDelay10us v p).powered = p.powered := rfl

@[simp] theorem generateHigh_held : (generateHigh p).held = p.held := rfl

@[simp] theorem generateHigh_portd : (generateHigh p).portd = p.portd ||| ioMask := rfl

@[simp] theorem generateHigh_ddrd : (generateHigh p).ddrd = p.ddrd &&& ~~~ioMask := rfl

@[simp] theorem generateLow_held : (generateLow p).held = p.held := rfl

@[simp] theorem generateLow_portd : (generateLow p).portd = p.portd &&& ~~~ioMask := rfl

@[simp] theorem generateLow_ddrd : (generateLow p).ddrd = p.ddrd ||| ioMask := rfl

@[simp] theorem generateHigh_level : (generateHigh p).level = .high := by
  have hddr : (generateHigh p).ddrd &&& ioMask = 0 := andNot_and_self_mask p.ddrd ioMask
  have hport : (generateHigh p).portd &&& ioMask ≠ 0 := by
    rw [generateHigh_portd, or_and_self_mask]
    decide
  rw [Port.level, if_pos hddr, if_neg hport]

@[simp] theorem generateLow_level : (generateLow p).level = .low := by
  have hddr : (generateLow p).ddrd &&& ioMask ≠ 0 := by
    rw [generateLow_ddrd, or_and_self_mask]
    decide
  have hport : (generateLow p).portd &&& ioMask = 0 := andNot_and_self_mask p.portd ioMask
  rw [Port.level, if_neg hddr, if_pos hport]

-- the data pin and the supply pin are different, so neither drive touches the supply
@[simp] theorem generateHigh_powered : (generateHigh p).powered = p.powered := by
  have hdisj : ioMask &&& vccMask = 0 := by decide
  simp [Port.powered, generateHigh, andNot_and_other_mask _ hdisj, or_and_other_mask _ hdisj]

@[simp] theorem generateLow_powered : (generateLow p).powered = p.powered := by
  have hdisj : ioMask &&& vccMask = 0 := by decide
  simp [Port.powered, generateLow, andNot_and_other_mask _ hdisj, or_and_other_mask _ hdisj]

end Pins

end LoccFirmware.Cylinder
