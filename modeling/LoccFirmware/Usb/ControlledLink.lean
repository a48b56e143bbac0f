import LoccFirmware.Usb.ControlHistory
import LoccFirmware.Usb.Transport

/-!
# The Serial Link Under Control Requests

The serial link shares the controller with the control requests: between any two calls of
the CDC driver the host may send a request, and the bus may be suspended and woken up.
Few of these touch the banks of the data endpoints.  Selecting a configuration empties
them, as does a reset of the bus, and clearing the halt of a data endpoint empties its
bank.  Everything else leaves the data alone, so the link carries on where it was.
-/

namespace LoccFirmware.Usb

open LoccFirmware.Automata

/-! ## The machine -/

/-- An event of the CDC driver, or one on the control endpoint. -/
inductive UsbEvent where
  | data (e : CdcEvent)
  | control (e : ControlEvent)

/-- The device, with its data endpoints and its control endpoint. -/
def usbDevice (capacity : ℕ) (signature : UInt8 → UInt8) :
    Mealy ControlState UsbEvent CdcOutput where
  step s
    | .data e => ({ s with cdc := (cdcDriver.step s.cdc e).1 }, (cdcDriver.step s.cdc e).2)
    | .control e => (((control capacity signature).step s e).1, CdcOutput.none)

/-- The byte that an event has put into the IN endpoint. -/
def usbWritten : UsbEvent → CdcOutput → List UInt8
  | .data e, o => written e o
  | .control _, _ => []

/-! ## Events that leave the banks alone -/

/-- A request that empties no bank: it does not select one of the configurations that there
are, and it does not clear the halt of a data endpoint. -/
def Request.KeepsData (r : Request) : Prop :=
  ¬ (r.Is standardToDevice reqSetConfiguration ∧ r.wValue.toUInt8 ≤ 1) ∧
    (r.Is standardToEndpoint reqClearFeature → r.wValue.toUInt8 = featureSelEndpointHalt →
      (r.wIndex.toUInt8 &&& 0x0F).toNat ≠ dataINEndpoint.number ∧
      (r.wIndex.toUInt8 &&& 0x0F).toNat ≠ dataOUTEndpoint.number)

instance (r : Request) : Decidable r.KeepsData :=
  inferInstanceAs (Decidable (_ ∧ _))

/-- An event that empties no bank. -/
def UsbEvent.KeepsData : UsbEvent → Prop
  | .data e => e.keepsBanks = true
  | .control (.request setup env) =>
    (Request.ofSetup setup).KeepsData ∧ (∀ e ∈ env.statusStage, e.isReset = false) ∧
      ∀ round ∈ env.outRounds, ∀ e ∈ round, e.isReset = false
  | .control (.interrupt e) => e.isReset = false

/-- The banks of the data endpoints. -/
def ControlState.banks (s : ControlState) : InEndpoint × OutEndpoint :=
  (s.cdc.dataIn, s.cdc.dataOut)

section Banks

variable {capacity : ℕ} {signature : UInt8 → UInt8} {r : Request} {env : Environment}
  {s : ControlState} {handled : Handled}

theorem interrupt_banks {e : BusEvent} (he : e.isReset = false) (s : ControlState) :
    (s.interrupt capacity e).banks = s.banks := by
  cases e with
  | suspend => simp only [ControlState.interrupt]; split <;> rfl
  | wakeUp => simp only [ControlState.interrupt]; split <;> rfl
  | reset => cases he

theorem interrupts_banks {es : List BusEvent} (hes : ∀ e ∈ es, e.isReset = false)
    (s : ControlState) : (s.interrupts capacity es).banks = s.banks := by
  induction es generalizing s with
  | nil => rfl
  | cons e es ih =>
    rw [List.forall_mem_cons] at hes
    exact (ih hes.2 (s.interrupt capacity e)).trans (interrupt_banks hes.1 s)

theorem waitForOUT_banks {rounds : List (List BusEvent)}
    (hrounds : ∀ round ∈ rounds, ∀ e ∈ round, e.isReset = false) (s : ControlState) :
    (s.waitForOUT capacity rounds).1.banks = s.banks := by
  induction rounds generalizing s with
  | nil => rfl
  | cons round rounds ih =>
    rw [List.forall_mem_cons] at hrounds
    have hround : (s.interrupts capacity round).banks = s.banks := interrupts_banks hrounds.1 s
    rw [ControlState.waitForOUT]
    split
    · exact hround
    · exact (ih hrounds.2 _).trans hround

theorem halt_banks {endpointIndex : ℕ} {set : Bool}
    (h : set = false → endpointIndex ≠ dataINEndpoint.number ∧
      endpointIndex ≠ dataOUTEndpoint.number) :
    (s.halt endpointIndex set).banks = s.banks := by
  unfold ControlState.halt
  split
  · cases set with
    | true => rfl
    | false =>
      obtain ⟨hin, hout⟩ := h rfl
      simp [ControlState.banks, hin, hout]
  · rfl

/-- **One request** that keeps the data leaves the banks alone. -/
theorem Outcome.banks (h : Outcome capacity signature r env s handled) (hr : r.KeepsData)
    (hstatus : ∀ e ∈ env.statusStage, e.isReset = false)
    (hrounds : ∀ round ∈ env.outRounds, ∀ e ∈ round, e.isReset = false) :
    handled.state.banks = s.banks := by
  cases h with
  | getLineEncoding => exact interrupts_banks hstatus s
  | lineEncodingAbandoned => exact waitForOUT_banks hrounds s
  | setLineEncoding hindex h s' hs' =>
    have hwaited : s'.banks = s.banks := hs' ▸ waitForOUT_banks hrounds s
    exact (interrupts_banks hstatus _).trans hwaited
  | setControlLineState => exact interrupts_banks hstatus s
  | sendBreak => exact interrupts_banks hstatus s
  | getDeviceStatus => exact interrupts_banks hstatus s
  | getEndpointStatus => exact interrupts_banks hstatus s
  | remoteWakeup => exact interrupts_banks hstatus _
  | halt h hvalue =>
    -- setting a halt empties nothing
    refine (interrupts_banks hstatus _).trans (halt_banks fun hclear => hr.2 ?_ hvalue)
    exact h.resolve_right fun hset => of_decide_eq_false hclear hset.2
  | otherFeature => exact interrupts_banks hstatus s
  | setAddress => exact interrupts_banks hstatus { s with address := r.wValue.toUInt8 &&& 0x7F }
  | getDescriptor => exact waitForOUT_banks hrounds s
  | getConfiguration => exact interrupts_banks hstatus s
  | setConfiguration h hvalue => exact absurd ⟨h, hvalue⟩ hr.1

/-- An event on the control endpoint that keeps the data leaves the banks alone. -/
theorem control_banks (capacity : ℕ) (signature : UInt8 → UInt8) {e : ControlEvent}
    (he : (UsbEvent.control e).KeepsData) (s : ControlState) :
    ((control capacity signature).step s e).1.banks = s.banks := by
  cases e with
  | request setup env =>
    obtain ⟨hr, hstatus, hrounds⟩ := he
    rcases process_outcome capacity signature (.ofSetup setup) env s with ⟨-, hout⟩ | ⟨-, heq⟩
    · exact hout.banks hr hstatus hrounds
    · exact congrArg (fun handled => handled.state.banks) heq
  | interrupt e => exact interrupt_banks he s

end Banks

/-! ## Every interleaving -/

section Interleavings

variable (capacity : ℕ) (signature : UInt8 → UInt8)

theorem usbDevice_conserves_in :
    (usbDevice capacity signature).Conserves (fun _ => True) UsbEvent.KeepsData
      (fun s => s.cdc.dataIn.bank.bytes) usbWritten (fun _ o => bytesOf o.packets) where
  keeps _ _ _ _ := trivial
  step s e _ he := by
    cases e with
    | data e => exact step_conserves_in s.cdc he
    | control e =>
      have hbanks := congrArg Prod.fst (control_banks capacity signature he s)
      have hbytes := congrArg (fun e : InEndpoint => e.bank.bytes) hbanks
      exact (List.append_nil _).trans hbytes.symm

theorem usbDevice_conserves_out :
    (usbDevice capacity signature).Conserves (fun _ => True) UsbEvent.KeepsData
      (fun s => s.cdc.dataOut.unread) (fun _ o => bytesOf o.accepted)
      (fun _ o => o.received.toList) where
  keeps _ _ _ _ := trivial
  step s e _ he := by
    cases e with
    | data e => exact step_conserves_out s.cdc he
    | control e =>
      have hbanks := congrArg Prod.snd (control_banks capacity signature he s)
      have hunread := congrArg OutEndpoint.unread hbanks
      exact (List.append_nil _).trans hunread.symm

end Interleavings

/-- **The link survives control requests**: however calls of the driver, transactions of the
    host, control requests, suspensions and wake-ups follow each other, if the device is
    neither reset nor configured anew and the halt of its data endpoints is not cleared, no
    byte is lost, doubled or moved in either direction. -/
theorem link_survives_control (capacity : ℕ) (signature : UInt8 → UInt8) (s : ControlState)
    (events : List UsbEvent) (hevents : ∀ e ∈ events, e.KeepsData) :
    s.cdc.dataIn.bank.bytes ++
          ((usbDevice capacity signature).drives usbWritten s events).flatten =
        bytesOf (((usbDevice capacity signature).outputs s events).flatMap CdcOutput.packets) ++
          ((usbDevice capacity signature).run s events).cdc.dataIn.bank.bytes ∧
      s.cdc.dataOut.unread ++
          bytesOf (((usbDevice capacity signature).outputs s events).flatMap CdcOutput.accepted) =
        ((usbDevice capacity signature).outputs s events).filterMap CdcOutput.received ++
          ((usbDevice capacity signature).run s events).cdc.dataOut.unread :=
  ⟨packets_in_order (usbDevice_conserves_in capacity signature) s hevents,
    received_in_order (usbDevice_conserves_out capacity signature) s hevents⟩

/-- A request that waits for nothing. -/
def quietEnvironment : Environment where
  outRounds := []
  out := fun _ => 0
  statusStage := []
  slidesIN := fun _ => ⟨fun _ => 0, fun _ => 0⟩
  slidesOUT := fun _ => ⟨fun _ => 0, fun _ => 0⟩
  slidesNotification := fun _ => ⟨fun _ => 0, fun _ => 0⟩

/-- The device with its link open. -/
def linkedDevice : ControlState :=
  { ControlState.initial 48 (fun _ => 0) (fun _ => ⟨fun _ => 0, fun _ => 0⟩) with
    cdc := openInterface }

/-- A byte from the host, a request for the status of the device, and then the byte is read. -/
def readAfterRequest : List UsbEvent :=
  [.data (.hostOut ⟨['o'.toUInt8], by decide⟩),
    .control (.request (fun i => [0x80, 0, 0, 0, 0, 0, 2, 0].getD i 0) quietEnvironment),
    .data .receiveByte]

theorem link_survives_control_read :
    ['o'.toUInt8] =
      ((usbDevice 48 id).outputs linkedDevice readAfterRequest).filterMap CdcOutput.received := by
  have hevents : ∀ e ∈ readAfterRequest, e.KeepsData := by
    intro e he
    simp only [readAfterRequest, List.mem_cons, List.not_mem_nil, or_false] at he
    rcases he with rfl | rfl | rfl
    · rfl
    · exact ⟨by decide, fun e he => (List.not_mem_nil he).elim,
        fun round hround => (List.not_mem_nil hround).elim⟩
    · rfl
  have hunread :
      ((usbDevice 48 id).run linkedDevice readAfterRequest).cdc.dataOut.unread = [] := by
    decide +kernel
  obtain ⟨-, hread⟩ := link_survives_control 48 id linkedDevice readAfterRequest hevents
  rw [hunread, List.append_nil] at hread
  rw [← hread]
  decide +kernel

end LoccFirmware.Usb
