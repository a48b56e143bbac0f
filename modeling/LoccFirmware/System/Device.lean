import LoccFirmware.System.HostLink
import LoccFirmware.Usb.Transport

/-!
# The Device on the Bus

The main loop and the CDC driver together, as the host sees them: `loop` begins with
`CDC_Device_ReceiveByte`, passes what it has to say to `CDC_Device_SendByte` byte by byte,
and ends with `CDC_Device_USBTask`.  The host may ask for a packet or send one between any
two frames, and ask for one in the middle of every `CDC_Device_SendByte`; its control
requests take effect between two frames.  A packet that is taken between two calls of a frame
makes no difference from one that is taken in the wait of the next call, or after the frame.

Each half of the device can be taken for itself: the loop runs as `firmware` on the bytes
that the driver gives it, and the driver runs as `cdcDriver` on the calls that the loop
makes.
-/

namespace LoccFirmware.System

open LoccFirmware.Automata LoccFirmware.Protocol LoccFirmware.Lock LoccFirmware.Usb

/-! ## The device -/

/-- A frame as it is given from outside: without the byte received, and with the bus during
each of its calls, in their order. -/
structure UsbFrame where
  pind : UInt8
  pinc : UInt8
  ticksBeforeCheck : ℕ
  ticksDuringStep : ℕ
  behind : ℕ → BitVec 16
  bus : ℕ → Bus

/-- The frame with the byte received. -/
def UsbFrame.input (f : UsbFrame) (received : Option UInt8) : FrameInput where
  received := received
  pind := f.pind
  pinc := f.pinc
  ticksBeforeCheck := f.ticksBeforeCheck
  ticksDuringStep := f.ticksDuringStep
  behind := f.behind

/-- The calls of `usb_putc` in a frame. -/
def UsbFrame.sends (f : UsbFrame) (sent : List UInt8) : List CdcEvent :=
  sent.zipIdx.map fun x => .sendByte (f.bus x.2) x.1

/-- All calls of a frame after the first one. -/
def UsbFrame.writes (f : UsbFrame) (sent : List UInt8) : List CdcEvent :=
  f.sends sent ++ [.usbTask (f.bus sent.length)]

/-- The firmware and the interface to the host. -/
structure Device where
  machine : Machine
  cdc : CdcInterface

/-- What happens to the device. -/
inductive DeviceEvent where
  | tick
  | frame (f : UsbFrame)
  | hostIn
  | hostOut (p : Packet)
  | deviceState (s : DeviceState)
  | setLineEncoding (l : LineEncoding)
  | configureEndpoints
  | busReset

/-- An event that empties no bank. -/
def DeviceEvent.keepsBanks : DeviceEvent → Bool
  | .configureEndpoints => false
  | .busReset => false
  | _ => true

/-- What it shows: what the main loop has seen of the event and what it has made of it, and
the calls of the driver with their results. -/
structure DeviceOutput where
  seen : Option Event
  frame : Option FrameOutput
  calls : List CdcEvent
  answers : List CdcOutput

/-- An event of the driver alone. -/
def Device.drive (d : Device) (e : CdcEvent) : Device × DeviceOutput :=
  ({ d with cdc := (cdcDriver.step d.cdc e).1 },
    { seen := none, frame := none, calls := [e], answers := [(cdcDriver.step d.cdc e).2] })

/-- `loop`, with the driver. -/
def Device.loop (d : Device) (f : UsbFrame) : Device × DeviceOutput :=
  let input := f.input d.cdc.receiveByte.2
  let looped := System.loop input d.machine
  let calls := .receiveByte :: f.writes looped.2.sent
  ({ machine := looped.1, cdc := cdcDriver.run d.cdc calls },
    { seen := some (.frame input)
      frame := some looped.2
      calls := calls
      answers := cdcDriver.outputs d.cdc calls })

/-- The device. -/
def device : Mealy Device DeviceEvent DeviceOutput where
  step d
    | .tick =>
      ({ d with machine := (firmware.step d.machine .tick).1 },
        { seen := some .tick, frame := none, calls := [], answers := [] })
    | .frame f => d.loop f
    | .hostIn => d.drive .hostIn
    | .hostOut p => d.drive (.hostOut p)
    | .deviceState s => d.drive (.deviceState s)
    | .setLineEncoding l => d.drive (.setLineEncoding l)
    | .configureEndpoints => d.drive .configureEndpoints
    | .busReset => d.drive .busReset

/-! ## What passes between the parties -/

section Step

variable (d : Device) (e : DeviceEvent)

end Step

/-! ## The calls of a frame -/

section Runs

variable (d : Device) (events : List DeviceEvent)

end Runs

/-! ## The theorem -/

end LoccFirmware.System
