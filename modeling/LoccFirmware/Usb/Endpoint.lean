import Mathlib.Data.List.Basic

/-!
# Endpoints of the USB Controller

The serial link to the host runs over two bulk endpoints of the USB controller, each with
a single bank of 16 bytes.  A bank belongs to the processor or to the controller.  The
processor fills the bank of the IN endpoint and hands it over with `Endpoint_ClearIN`; the
controller sends it as one packet when the host asks for it and then hands the empty bank
back.  A packet from the host lies in the bank of the OUT endpoint until the processor
hands that bank back with `Endpoint_ClearOUT`; until then the controller refuses further
packets.

The functions of `Endpoint_AVR8.h` read and write registers of the controller.  They are
modelled by what these registers do to the banks; data toggles and retries are left to the
controller.
-/

namespace LoccFirmware.Usb

/-! ## Packets and banks -/

/-- `CDC_TXRX_EPSIZE`. -/
def cdcTxrxEpsize : ℕ := 16

/-- The contents of a bank: as many bytes as it has room for at most. -/
@[ext] structure Packet where
  bytes : List UInt8
  fits : bytes.length ≤ cdcTxrxEpsize
  deriving DecidableEq

/-- No bytes; as a packet, one of length zero. -/
def Packet.empty : Packet where
  bytes := []
  fits := Nat.zero_le _

/-- `USB_DeviceState`. -/
inductive DeviceState where
  | unattached
  | powered
  | default
  | addressed
  | configured
  | suspended
  deriving DecidableEq, Repr

/-! ## The IN endpoint -/

/-- An IN endpoint: its bank, and whether that has been handed to the controller. -/
@[ext] structure InEndpoint where
  bank : Packet
  armed : Bool
  deriving DecidableEq

namespace InEndpoint

/-- An empty bank in the hands of the processor. -/
def idle : InEndpoint where
  bank := .empty
  armed := false

variable (e : InEndpoint)

/-- `Endpoint_IsINReady`: the flag `TXINI`. -/
def isINReady : Bool :=
  !e.armed

/-- `Endpoint_IsReadWriteAllowed`: the flag `RWAL`. -/
def isReadWriteAllowed : Bool :=
  !e.armed && decide (e.bank.bytes.length < cdcTxrxEpsize)

/-- `Endpoint_BytesInEndpoint`. -/
def bytesInEndpoint : ℕ :=
  e.bank.bytes.length

/-- `Endpoint_ClearIN`; nothing happens to a bank that has been handed over before. -/
def clearIN : InEndpoint :=
  { e with armed := true }

/-- `Endpoint_Write_8`; what is written to a full bank is lost. -/
def write8 (data : UInt8) : InEndpoint :=
  if h : e.bank.bytes.length < cdcTxrxEpsize then
    { e with bank := ⟨e.bank.bytes ++ [data], by
      rw [List.length_append]
      exact h⟩ }
  else e

/-- The host asks for a packet: the controller sends the bank if it has it, and hands it
back empty. -/
def takePacket : InEndpoint × Option Packet :=
  if e.armed then (idle, some e.bank) else (e, none)

/-- The host may ask for a packet, or not. -/
def offer (asks : Bool) : InEndpoint × Option Packet :=
  if asks then e.takePacket else (e, none)

variable {e}

theorem isReadWriteAllowed_iff :
    e.isReadWriteAllowed = true ↔ e.armed = false ∧ e.bank.bytes.length < cdcTxrxEpsize := by
  simp [isReadWriteAllowed]

theorem write8_bytes (data : UInt8) (h : e.bank.bytes.length < cdcTxrxEpsize) :
    (e.write8 data).bank.bytes = e.bank.bytes ++ [data] := by
  rw [write8, dif_pos h]

@[simp] theorem write8_armed (data : UInt8) : (e.write8 data).armed = e.armed := by
  unfold write8
  split <;> rfl

theorem takePacket_of_armed (h : e.armed = true) : e.takePacket = (idle, some e.bank) :=
  if_pos h

theorem takePacket_of_not_armed (h : e.armed = false) : e.takePacket = (e, none) := by
  rw [takePacket, h]
  rfl

/-- Nothing happens, or the controller sends the bank that it has. -/
theorem offer_cases (e : InEndpoint) (asks : Bool) :
    e.offer asks = (e, none) ∨ e.armed = true ∧ e.offer asks = (idle, some e.bank) := by
  cases asks with
  | false => exact Or.inl rfl
  | true =>
    by_cases harmed : e.armed = true
    · exact Or.inr ⟨harmed, takePacket_of_armed harmed⟩
    · exact Or.inl (takePacket_of_not_armed (Bool.eq_false_iff.mpr harmed))

end InEndpoint

/-! ## The OUT endpoint -/

/-- An OUT endpoint: what is left of the packet in its bank, if there is one. -/
@[ext] structure OutEndpoint where
  packet : Option Packet
  deriving DecidableEq

namespace OutEndpoint

/-- A bank in the hands of the controller. -/
def idle : OutEndpoint where
  packet := none

variable (e : OutEndpoint)

/-- `Endpoint_IsOUTReceived`: the flag `RXOUTI`. -/
def isOUTReceived : Bool :=
  e.packet.isSome

/-- The bytes that have not been read yet. -/
def unread : List UInt8 :=
  (e.packet.map Packet.bytes).getD []

/-- `Endpoint_BytesInEndpoint`. -/
def bytesInEndpoint : ℕ :=
  e.unread.length

/-- `Endpoint_Read_8`, on a bank with bytes in it. -/
def read8 : OutEndpoint × Option UInt8 :=
  match e.packet with
  | some ⟨byte :: bytes, fits⟩ =>
    ({ packet := some ⟨bytes, Nat.le_of_succ_le fits⟩ }, some byte)
  | _ => (e, none)

/-- `Endpoint_ClearOUT`: whatever is in the bank is given up. -/
def clearOUT (_e : OutEndpoint) : OutEndpoint :=
  idle

/-- The host sends a packet: the controller takes it if it has the bank. -/
def putPacket (p : Packet) : OutEndpoint × Option Packet :=
  if e.packet.isNone then ({ packet := some p }, some p) else (e, none)

end OutEndpoint

/-! ## Waiting for the host -/

/-- What the loop of `Endpoint_WaitUntilReady` finds in one round: whether the host has asked
for a packet since the last one, `USB_DeviceState`, the stall flag and the frame number. -/
structure Poll where
  hostTakes : Bool
  deviceState : DeviceState
  stalled : Bool
  frameNumber : ℕ
  deriving DecidableEq

/-- The error codes; `ENDPOINT_READYWAIT_` and `ENDPOINT_RWSTREAM_` use the same numbers. -/
inductive ErrorCode where
  | noError
  | endpointStalled
  | deviceDisconnected
  | busSuspended
  | timeout
  deriving DecidableEq, Repr

/-- What a wait leaves behind: the endpoint, `USB_DeviceState`, the packets the host took
and the returned value. -/
structure Waited where
  endpoint : InEndpoint
  deviceState : DeviceState
  packets : List Packet
  result : ErrorCode

/-- `USB_STREAM_TIMEOUT_MS`. -/
def usbStreamTimeoutMs : ℕ := 100

/-- The checks of one round, with `TimeoutMSRem` and `PreviousFrameNumber`: the value to
return with, if any. -/
def Poll.verdict (p : Poll) (e : InEndpoint) (timeoutMSRem previousFrameNumber : ℕ) :
    Option ErrorCode :=
  if e.isINReady then some .noError
  else if p.deviceState = .unattached then some .deviceDisconnected
  else if p.deviceState = .suspended then some .busSuspended
  else if p.stalled then some .endpointStalled
  else if p.frameNumber ≠ previousFrameNumber ∧ timeoutMSRem = 0 then some .timeout
  else none

/-- The loop of `Endpoint_WaitUntilReady` on an IN endpoint; `none` if it has not come to an
end yet. -/
def waitLoop : InEndpoint → ℕ → ℕ → List Poll → Option Waited
  | _, _, _, [] => none
  | e, timeoutMSRem, previousFrameNumber, p :: ps =>
    let taken := e.offer p.hostTakes
    match p.verdict taken.1 timeoutMSRem previousFrameNumber with
    | some result =>
      some { endpoint := taken.1, deviceState := p.deviceState, packets := taken.2.toList,
             result := result }
    -- a bank that is not ready has not been taken, so no packet is forgotten here
    | none =>
      let timeoutMSRem :=
        if p.frameNumber ≠ previousFrameNumber then timeoutMSRem - 1 else timeoutMSRem
      waitLoop taken.1 timeoutMSRem p.frameNumber ps

/-- How often the frame number changes. -/
def frameChanges : ℕ → List Poll → ℕ
  | _, [] => 0
  | previous, p :: ps =>
    (if p.frameNumber ≠ previous then 1 else 0) + frameChanges p.frameNumber ps

/-- A round that goes on has time left if the frame number has changed. -/
theorem Poll.timeoutMSRem_pos {p : Poll} {e : InEndpoint} {timeoutMSRem previous : ℕ}
    (h : p.verdict e timeoutMSRem previous = none) (hframe : p.frameNumber ≠ previous) :
    0 < timeoutMSRem := by
  by_contra hzero
  have hdue : p.frameNumber ≠ previous ∧ timeoutMSRem = 0 := ⟨hframe, by omega⟩
  unfold Poll.verdict at h
  rw [if_pos hdue] at h
  split_ifs at h

/-- The wait comes to an end, at the latest when the frame number has changed more often than
    `TimeoutMSRem` allows. -/
theorem waitLoop_isSome {e : InEndpoint} {timeoutMSRem previous : ℕ} {ps : List Poll}
    (h : timeoutMSRem < frameChanges previous ps) :
    (waitLoop e timeoutMSRem previous ps).isSome = true := by
  induction ps generalizing e timeoutMSRem previous with
  | nil => exact absurd h (Nat.not_lt_zero _)
  | cons p ps ih =>
    simp only [waitLoop]
    split
    · rfl
    · rename_i hgoes
      apply ih
      rw [frameChanges] at h
      by_cases hframe : p.frameNumber ≠ previous
      · have hpos := p.timeoutMSRem_pos hgoes hframe
        rw [if_pos hframe] at h ⊢
        omega
      · rw [if_neg hframe] at h ⊢
        omega

/-- The bus during a call: whether the host asks for a packet before the call comes to its
wait, the frame number when that begins, and the rounds of its loop, as many as it can take
at all.  The bus is not reset meanwhile: that would take the endpoint from under the call. -/
structure Bus where
  asksFirst : Bool
  frameNumber : ℕ
  polls : List Poll
  goesOn : usbStreamTimeoutMs < frameChanges frameNumber polls
  noReset : ∀ p ∈ polls, p.deviceState ≠ .default

/-- `Endpoint_WaitUntilReady`, on an IN endpoint. -/
def waitUntilReady (bus : Bus) (e : InEndpoint) : Waited :=
  (waitLoop e usbStreamTimeoutMs bus.frameNumber bus.polls).get (waitLoop_isSome bus.goesOn)

/-- How a wait for a packet can end: the host has taken it, or nothing has happened to it. -/
inductive WaitOutcome (e : InEndpoint) (w : Waited) : Prop where
  | taken (result : w.result = .noError) (endpoint : w.endpoint = .idle)
      (packets : w.packets = [e.bank])
  | failed (result : w.result ≠ .noError) (endpoint : w.endpoint = e) (packets : w.packets = [])

/-- As long as the bank is with the controller, every verdict is an error. -/
theorem Poll.verdict_ne_noError {p : Poll} {e : InEndpoint} (harmed : e.armed = true)
    {timeoutMSRem previous : ℕ} {result : ErrorCode}
    (h : p.verdict e timeoutMSRem previous = some result) : result ≠ .noError := by
  have hbusy : ¬ e.isINReady = true := by simp [InEndpoint.isINReady, harmed]
  rintro rfl
  unfold Poll.verdict at h
  rw [if_neg hbusy] at h
  split_ifs at h
  all_goals cases h

theorem waitLoop_outcome {e : InEndpoint} (harmed : e.armed = true) {timeoutMSRem previous : ℕ}
    {ps : List Poll} {w : Waited} (h : waitLoop e timeoutMSRem previous ps = some w) :
    WaitOutcome e w := by
  induction ps generalizing timeoutMSRem previous with
  | nil => cases h
  | cons p ps ih =>
    simp only [waitLoop] at h
    rcases e.offer_cases p.hostTakes with hoffer | ⟨-, hoffer⟩
    · rw [hoffer] at h
      split at h
      · rename_i result hverdict
        obtain rfl := Option.some.inj h
        exact .failed (p.verdict_ne_noError harmed hverdict) rfl rfl
      · exact ih h
    · rw [hoffer] at h
      obtain rfl := Option.some.inj h
      exact .taken rfl rfl rfl

/-- `USB_DeviceState` is what some round has found. -/
theorem waitLoop_deviceState {e : InEndpoint} {timeoutMSRem previous : ℕ} {ps : List Poll}
    {w : Waited} (h : waitLoop e timeoutMSRem previous ps = some w) :
    w.deviceState ∈ ps.map Poll.deviceState := by
  induction ps generalizing e timeoutMSRem previous with
  | nil => cases h
  | cons p ps ih =>
    rw [List.map_cons]
    simp only [waitLoop] at h
    split at h
    · obtain rfl := Option.some.inj h
      exact List.mem_cons_self
    · exact List.mem_cons_of_mem _ (ih h)

theorem waitUntilReady_deviceState (bus : Bus) (e : InEndpoint) :
    (waitUntilReady bus e).deviceState ∈ bus.polls.map Poll.deviceState :=
  waitLoop_deviceState (Option.some_get _).symm

theorem waitUntilReady_outcome {e : InEndpoint} (harmed : e.armed = true) (bus : Bus) :
    WaitOutcome e (waitUntilReady bus e) :=
  waitLoop_outcome harmed (Option.some_get _).symm

end LoccFirmware.Usb
