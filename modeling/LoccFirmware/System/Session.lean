import LoccFirmware.Protocol.CommandCodec
import LoccFirmware.System.Device

/-!
# A Session from the Host

A host that speaks the command language writes it to the serial port, and the bytes travel
in packets, wait in the endpoint, and are picked up one per frame while the timer ticks and
the lock moves.  None of this matters to what becomes of the commands in the end.  Here the
layers are put together: the link, the parser, and the accounts of the lock.
-/

namespace LoccFirmware.System

open LoccFirmware.Automata LoccFirmware.Protocol LoccFirmware.Lock LoccFirmware.Usb

/-! ## Commands recognised and accepted -/

/-- The open commands of a session. -/
def opens (cmds : List (Command × LineEnds)) : ℕ :=
  (cmds.map Prod.fst).count .openLock

end LoccFirmware.System
