import LoccFirmware.Automata.Conservation
import LoccFirmware.Usb.Endpoint

/-!
# The CDC Class Driver

`usb_putc` is `CDC_Device_SendByte`, and the bytes of the host come out of
`CDC_Device_ReceiveByte`.  Bytes gather in the bank of the IN endpoint until it is handed
over, by `CDC_Device_SendByte` when there is no room left, or else by
`CDC_Device_USBTask`, which is called once per frame.  `CDC_Device_SendByte` waits for the
host if it has to, and gives up after a while.

The driver is a machine that is called by the firmware and by the host, in any order.
Whatever that order is, as long as the host neither resets the bus nor configures the
device anew, no byte that was accepted is lost, doubled or moved, in either direction, and
a packet that fills the bank is never the last one of a transfer.

The functions are not atomic.  `CDC_Device_SendByte` tests whether the bank may be written
and hands it over if not; if the host has taken the bank in between, what is handed over
is an empty bank, and the host gets a packet of length zero.
-/

namespace LoccFirmware.Usb

open LoccFirmware.Automata

/-! ## State -/

/-- `CDC_LineEncoding_t`. -/
structure LineEncoding where
  baudRateBPS : UInt32
  charFormat : UInt8
  parityType : UInt8
  dataBits : UInt8
  deriving DecidableEq

/-- `USB_DeviceState`, the state of the CDC interface and its two data endpoints. -/
structure CdcInterface where
  deviceState : DeviceState
  lineEncoding : LineEncoding
  dataIn : InEndpoint
  dataOut : OutEndpoint

namespace CdcInterface

/-- The test that every function of the driver begins with. -/
def isOpen (c : CdcInterface) : Bool :=
  decide (c.deviceState = .configured) && decide (c.lineEncoding.baudRateBPS ≠ 0)

end CdcInterface

/-- What a function that writes to the host leaves behind: the interface, the packets that
the host took meanwhile and the returned value. -/
structure Transferred where
  cdc : CdcInterface
  packets : List Packet
  result : ErrorCode

/-! ## Functions -/

namespace CdcInterface

/-- `Endpoint_WaitUntilReady`, on the IN endpoint. -/
def waitForHost (bus : Bus) (c : CdcInterface) : Transferred :=
  let waited := waitUntilReady bus c.dataIn
  { cdc := { c with dataIn := waited.endpoint, deviceState := waited.deviceState }
    packets := waited.packets
    result := waited.result }

/-- `CDC_Device_ConfigureEndpoints`: the state is cleared and both endpoints begin anew. -/
def configureEndpoints (c : CdcInterface) : CdcInterface :=
  { c with
    lineEncoding := { baudRateBPS := 0, charFormat := 0, parityType := 0, dataBits := 0 }
    dataIn := .idle
    dataOut := .idle }

/-- `CDC_Device_SendByte`. -/
def sendByte (bus : Bus) (data : UInt8) (c : CdcInterface) : Transferred :=
  if !c.isOpen then { cdc := c, packets := [], result := .deviceDisconnected }
  else if c.dataIn.isReadWriteAllowed then
    { cdc := { c with dataIn := c.dataIn.write8 data }, packets := [], result := .noError }
  else
    -- the host may ask for the bank between the test and `Endpoint_ClearIN`
    let offered := c.dataIn.offer bus.asksFirst
    let waited := waitForHost bus { c with dataIn := offered.1.clearIN }
    let waited := { waited with packets := offered.2.toList ++ waited.packets }
    if waited.result ≠ .noError then waited
    else { waited with cdc := { waited.cdc with dataIn := waited.cdc.dataIn.write8 data } }

/-- `CDC_Device_Flush`; as `CDC_Device_USBTask` calls it, the bank is not with the
controller, so the host cannot take it before it is handed over. -/
def flush (bus : Bus) (c : CdcInterface) : Transferred :=
  if !c.isOpen then { cdc := c, packets := [], result := .deviceDisconnected }
  else if c.dataIn.bytesInEndpoint = 0 then { cdc := c, packets := [], result := .noError }
  else
    let bankFull := !c.dataIn.isReadWriteAllowed
    let c := { c with dataIn := c.dataIn.clearIN }
    if bankFull then
      let waited := waitForHost bus c
      if waited.result ≠ .noError then waited
      -- a packet of length zero ends the transfer
      else { waited with cdc := { waited.cdc with dataIn := waited.cdc.dataIn.clearIN } }
    else { cdc := c, packets := [], result := .noError }

/-- `CDC_Device_USBTask`; it returns nothing, and the result is that of `CDC_Device_Flush`. -/
def usbTask (bus : Bus) (c : CdcInterface) : Transferred :=
  if !c.isOpen then { cdc := c, packets := [], result := .deviceDisconnected }
  else if c.dataIn.isINReady then flush bus c
  else { cdc := c, packets := [], result := .noError }

/-- `CDC_Device_ReceiveByte`; `none` is the value -1. -/
def receiveByte (c : CdcInterface) : CdcInterface × Option UInt8 :=
  if !c.isOpen then (c, none)
  else if c.dataOut.isOUTReceived then
    let read := if c.dataOut.bytesInEndpoint ≠ 0 then c.dataOut.read8 else (c.dataOut, none)
    let dataOut := if read.1.bytesInEndpoint = 0 then read.1.clearOUT else read.1
    ({ c with dataOut := dataOut }, read.2)
  else (c, none)

/-- A reset of the bus: the controller empties both banks, and the handler of the interrupt
sets `USB_DeviceState`. -/
def busReset (c : CdcInterface) : CdcInterface :=
  { c with deviceState := .default, dataIn := .idle, dataOut := .idle }

end CdcInterface

/-! ## The driver as a machine -/

/-- What happens to the driver: a call by the firmware, a transaction of the host, or a
change of the link.  A reset of the bus is an event of its own, since it empties the banks.
The other changes of `USB_DeviceState` leave them alone, also that of `SET_ADDRESS` with
address 0, which goes to the same state as a reset. -/
inductive CdcEvent where
  | sendByte (bus : Bus) (data : UInt8)
  | usbTask (bus : Bus)
  | receiveByte
  | hostIn
  | hostOut (p : Packet)
  | deviceState (s : DeviceState)
  | setLineEncoding (l : LineEncoding)
  | configureEndpoints
  | busReset

/-- An event that empties no bank. -/
def CdcEvent.keepsBanks : CdcEvent → Bool
  | .configureEndpoints => false
  | .busReset => false
  | _ => true

/-- What it shows: packets to the host, the byte received from it, packets accepted from it,
and the returned value. -/
structure CdcOutput where
  packets : List Packet
  received : Option UInt8
  accepted : List Packet
  result : ErrorCode

/-- The output of a function that writes to the host. -/
def Transferred.output (t : Transferred) : CdcOutput where
  packets := t.packets
  received := none
  accepted := []
  result := t.result

/-- The output of an event that nothing comes of. -/
def CdcOutput.none : CdcOutput where
  packets := []
  received := Option.none
  accepted := []
  result := .noError

/-- The driver. -/
def cdcDriver : Mealy CdcInterface CdcEvent CdcOutput where
  step c
    | .sendByte bus data => ((c.sendByte bus data).cdc, (c.sendByte bus data).output)
    | .usbTask bus => ((c.usbTask bus).cdc, (c.usbTask bus).output)
    | .receiveByte => (c.receiveByte.1, { CdcOutput.none with received := c.receiveByte.2 })
    | .hostIn =>
      ({ c with dataIn := c.dataIn.takePacket.1 },
        { CdcOutput.none with packets := c.dataIn.takePacket.2.toList })
    | .hostOut p =>
      ({ c with dataOut := (c.dataOut.putPacket p).1 },
        { CdcOutput.none with accepted := (c.dataOut.putPacket p).2.toList })
    | .deviceState s => ({ c with deviceState := s }, CdcOutput.none)
    | .setLineEncoding l => ({ c with lineEncoding := l }, CdcOutput.none)
    | .configureEndpoints => (c.configureEndpoints, CdcOutput.none)
    | .busReset => (c.busReset, CdcOutput.none)

/-- The bytes of some packets. -/
def bytesOf (ps : List Packet) : List UInt8 :=
  ps.flatMap Packet.bytes

/-- The byte that an event has put into the IN endpoint. -/
def written : CdcEvent → CdcOutput → List UInt8
  | .sendByte _ data, o => if o.result = .noError then [data] else []
  | _, _ => []

/-! ## What the functions can do -/

/-- The ways in which `CDC_Device_SendByte` can end. -/
inductive SendOutcome (bus : Bus) (data : UInt8) (c : CdcInterface) (t : Transferred) : Prop where
  | closed (h : c.isOpen = false)
      (eq : t = { cdc := c, packets := [], result := .deviceDisconnected })
  | written (idle : c.dataIn.armed = false) (room : c.dataIn.bank.bytes.length < cdcTxrxEpsize)
      (eq : t = { cdc := { c with dataIn := c.dataIn.write8 data }, packets := [],
                  result := .noError })
  | taken (s : DeviceState) (state : s ∈ bus.polls.map Poll.deviceState)
      (busy : c.dataIn.armed = true ∨ c.dataIn.bank.bytes.length = cdcTxrxEpsize)
      (eq : t = { cdc := { c with dataIn := InEndpoint.idle.write8 data, deviceState := s },
                  packets := (c.dataIn.offer bus.asksFirst).2.toList ++
                    [(c.dataIn.offer bus.asksFirst).1.bank],
                  result := .noError })
  | failed (s : DeviceState) (r : ErrorCode) (state : s ∈ bus.polls.map Poll.deviceState)
      (error : r ≠ .noError)
      (busy : c.dataIn.armed = true ∨ c.dataIn.bank.bytes.length = cdcTxrxEpsize)
      (eq : t = { cdc := { c with
                    dataIn := (c.dataIn.offer bus.asksFirst).1.clearIN, deviceState := s },
                  packets := (c.dataIn.offer bus.asksFirst).2.toList, result := r })

/-- The ways in which `CDC_Device_USBTask` can end. -/
inductive TaskOutcome (bus : Bus) (c : CdcInterface) (t : Transferred) : Prop where
  | nothing (r : ErrorCode) (eq : t = { cdc := c, packets := [], result := r })
      (why : c.isOpen = false ∨ c.dataIn.armed = true ∨ c.dataIn.bank.bytes = [])
  | handedOver (idle : c.dataIn.armed = false) (some : c.dataIn.bank.bytes ≠ [])
      (room : c.dataIn.bank.bytes.length < cdcTxrxEpsize)
      (eq : t = { cdc := { c with dataIn := c.dataIn.clearIN }, packets := [],
                  result := .noError })
  | ended (s : DeviceState) (state : s ∈ bus.polls.map Poll.deviceState)
      (idle : c.dataIn.armed = false) (full : c.dataIn.bank.bytes.length = cdcTxrxEpsize)
      (eq : t = { cdc := { c with dataIn := InEndpoint.idle.clearIN, deviceState := s },
                  packets := [c.dataIn.bank], result := .noError })
  | failed (s : DeviceState) (r : ErrorCode) (state : s ∈ bus.polls.map Poll.deviceState)
      (error : r ≠ .noError) (idle : c.dataIn.armed = false)
      (full : c.dataIn.bank.bytes.length = cdcTxrxEpsize)
      (eq : t = { cdc := { c with dataIn := c.dataIn.clearIN, deviceState := s }, packets := [],
                  result := r })

section Outcomes

variable (bus : Bus) (c : CdcInterface)

/-- A bank that may not be written is with the controller or full. -/
theorem busy_of_not_allowed {e : InEndpoint} (h : ¬ e.isReadWriteAllowed = true) :
    e.armed = true ∨ e.bank.bytes.length = cdcTxrxEpsize := by
  rw [InEndpoint.isReadWriteAllowed_iff] at h
  by_cases harmed : e.armed = true
  · exact Or.inl harmed
  · have hfits := e.bank.fits
    have hroom : ¬ e.bank.bytes.length < cdcTxrxEpsize := fun hlt =>
      h ⟨Bool.eq_false_iff.mpr harmed, hlt⟩
    exact Or.inr (by omega)

/-- A wait ends with the bank taken or with everything but `USB_DeviceState` unchanged. -/
theorem waitForHost_cases (harmed : c.dataIn.armed = true) :
    ∃ s ∈ bus.polls.map Poll.deviceState,
      c.waitForHost bus = { cdc := { c with dataIn := .idle, deviceState := s },
                               packets := [c.dataIn.bank], result := .noError } ∨
      ∃ r, r ≠ .noError ∧
        c.waitForHost bus = { cdc := { c with deviceState := s }, packets := [], result := r } := by
  refine ⟨_, waitUntilReady_deviceState bus c.dataIn, ?_⟩
  unfold CdcInterface.waitForHost
  rcases waitUntilReady_outcome harmed bus with
    ⟨hresult, hend, hpackets⟩ | ⟨hresult, hend, hpackets⟩
  · left
    simp only [hresult, hend, hpackets]
  · right
    refine ⟨_, hresult, ?_⟩
    simp only [hend, hpackets]

theorem sendByte_outcome (data : UInt8) : SendOutcome bus data c (c.sendByte bus data) := by
  unfold CdcInterface.sendByte
  by_cases hopen : c.isOpen = true
  · rw [hopen]
    by_cases hallowed : c.dataIn.isReadWriteAllowed = true
    · obtain ⟨hidle, hroom⟩ := InEndpoint.isReadWriteAllowed_iff.mp hallowed
      rw [hallowed]
      exact .written hidle hroom rfl
    · have hbusy := busy_of_not_allowed hallowed
      rw [Bool.eq_false_iff.mpr hallowed]
      obtain ⟨s, hs, hwait | ⟨r, hr, hwait⟩⟩ := waitForHost_cases bus
        { c with dataIn := (c.dataIn.offer bus.asksFirst).1.clearIN } rfl
      · simp only [hwait]
        exact .taken s hs hbusy rfl
      · simp only [hwait, if_pos hr, List.append_nil]
        exact .failed s r hs hr hbusy rfl
  · rw [Bool.eq_false_iff.mpr hopen]
    exact .closed (Bool.eq_false_iff.mpr hopen) rfl

theorem usbTask_outcome : TaskOutcome bus c (c.usbTask bus) := by
  unfold CdcInterface.usbTask CdcInterface.flush
  by_cases hopen : c.isOpen = true
  · rw [hopen]
    by_cases harmed : c.dataIn.armed = true
    · have hready : c.dataIn.isINReady = false := by rw [InEndpoint.isINReady, harmed]; rfl
      rw [hready]
      exact .nothing _ rfl (Or.inr (Or.inl harmed))
    · have hidle := Bool.eq_false_iff.mpr harmed
      have hready : c.dataIn.isINReady = true := by rw [InEndpoint.isINReady, hidle]; rfl
      rw [hready]
      by_cases hbytes : c.dataIn.bank.bytes = []
      · have hzero : c.dataIn.bytesInEndpoint = 0 := by rw [InEndpoint.bytesInEndpoint, hbytes]; rfl
        rw [hzero]
        exact .nothing _ rfl (Or.inr (Or.inr hbytes))
      · have hsome : c.dataIn.bytesInEndpoint ≠ 0 := by
          simpa [InEndpoint.bytesInEndpoint] using hbytes
        simp only [Bool.not_true, Bool.false_eq_true, if_false, if_true, if_neg hsome]
        by_cases hallowed : c.dataIn.isReadWriteAllowed = true
        · obtain ⟨-, hroom⟩ := InEndpoint.isReadWriteAllowed_iff.mp hallowed
          rw [hallowed]
          exact .handedOver hidle hbytes hroom rfl
        · have hfull := (busy_of_not_allowed hallowed).resolve_left harmed
          rw [Bool.eq_false_iff.mpr hallowed]
          obtain ⟨s, hs, hwait | ⟨r, hr, hwait⟩⟩ :=
            waitForHost_cases bus { c with dataIn := c.dataIn.clearIN } rfl
          · simp only [hwait]
            exact .ended s hs hidle hfull rfl
          · simp only [hwait, if_pos hr]
            exact .failed s r hs hr hidle hfull rfl
  · have hclosed := Bool.eq_false_iff.mpr hopen
    rw [hclosed]
    exact .nothing _ rfl (Or.inl hclosed)

end Outcomes

end LoccFirmware.Usb
