import LoccFirmware.Usb.Cdc

/-!
# The Serial Link

The driver serves two parties that know nothing of each other: the firmware calls its
functions, the host asks for packets and sends some, and the link may be closed and opened
in between.  This file is about all their interleavings at once.
-/

namespace LoccFirmware.Usb

open LoccFirmware.Automata

/-! ## One step -/

theorem receiveByte_dataIn (c : CdcInterface) : c.receiveByte.1.dataIn = c.dataIn := by
  unfold CdcInterface.receiveByte
  split
  · rfl
  split <;> rfl

/-- If the host asks for a packet, the bytes of the bank are in that packet or still there. -/
theorem offer_bytes (e : InEndpoint) (asks : Bool) :
    bytesOf (e.offer asks).2.toList ++ (e.offer asks).1.bank.bytes = e.bank.bytes := by
  rcases e.offer_cases asks with h | ⟨-, h⟩
  · rw [h]
    rfl
  · rw [h]
    simp [bytesOf, InEndpoint.idle, Packet.empty]

theorem bytesOf_append (ps qs : List Packet) : bytesOf (ps ++ qs) = bytesOf ps ++ bytesOf qs :=
  List.flatMap_append

/-- `CDC_Device_SendByte` loses nothing, whatever the host takes meanwhile. -/
theorem sendByte_conserves (bus : Bus) (data : UInt8) (c : CdcInterface) :
    c.dataIn.bank.bytes ++ (if (c.sendByte bus data).result = .noError then [data] else []) =
      bytesOf (c.sendByte bus data).packets ++ (c.sendByte bus data).cdc.dataIn.bank.bytes := by
  rcases sendByte_outcome bus c data with ⟨-, heq⟩ | ⟨-, hroom, heq⟩ | ⟨s, -, -, heq⟩ |
    ⟨s, r, -, herror, -, heq⟩
  · rw [heq]
    simp [bytesOf]
  · rw [heq]
    simp [bytesOf, InEndpoint.write8_bytes data hroom]
  · have hroom : InEndpoint.idle.bank.bytes.length < cdcTxrxEpsize := by decide
    rw [heq, ← offer_bytes c.dataIn bus.asksFirst]
    simp only [InEndpoint.write8_bytes data hroom, bytesOf_append]
    simp [bytesOf, InEndpoint.idle, Packet.empty]
  · rw [heq, ← offer_bytes c.dataIn bus.asksFirst]
    simp [herror, InEndpoint.clearIN]

/-- Nor does `CDC_Device_USBTask`. -/
theorem usbTask_conserves (bus : Bus) (c : CdcInterface) :
    c.dataIn.bank.bytes =
      bytesOf (c.usbTask bus).packets ++ (c.usbTask bus).cdc.dataIn.bank.bytes := by
  rcases usbTask_outcome bus c with ⟨r, heq, -⟩ | ⟨-, -, -, heq⟩ | ⟨s, -, -, -, heq⟩ |
    ⟨s, r, -, -, -, -, heq⟩
  · rw [heq]
    rfl
  · rw [heq]
    rfl
  · rw [heq]
    simp [bytesOf, InEndpoint.clearIN, InEndpoint.idle, Packet.empty]
  · rw [heq]
    rfl

/-- To the host: the bytes in the bank and the one that is accepted are those of the packets
    that leave and of the bank after that. -/
theorem step_conserves_in (c : CdcInterface) {e : CdcEvent} (he : e.keepsBanks = true) :
    c.dataIn.bank.bytes ++ written e (cdcDriver.step c e).2 =
      bytesOf (cdcDriver.step c e).2.packets ++ (cdcDriver.step c e).1.dataIn.bank.bytes := by
  cases e with
  | sendByte bus data => exact sendByte_conserves bus data c
  | usbTask bus => exact (List.append_nil _).trans (usbTask_conserves bus c)
  | receiveByte => simp [cdcDriver, written, CdcOutput.none, bytesOf, receiveByte_dataIn]
  | hostIn =>
    by_cases harmed : c.dataIn.armed = true
    · simp [cdcDriver, written, CdcOutput.none, bytesOf, c.dataIn.takePacket_of_armed harmed,
        InEndpoint.idle, Packet.empty]
    · simp [cdcDriver, written, CdcOutput.none, bytesOf,
        c.dataIn.takePacket_of_not_armed (Bool.eq_false_iff.mpr harmed)]
  | hostOut p => simp [cdcDriver, written, CdcOutput.none, bytesOf]
  | deviceState s => simp [cdcDriver, written, CdcOutput.none, bytesOf]
  | setLineEncoding l => simp [cdcDriver, written, CdcOutput.none, bytesOf]
  | configureEndpoints => cases he
  | busReset => cases he

/-- `CDC_Device_ReceiveByte` takes the first unread byte, if there is one. -/
theorem receiveByte_unread (c : CdcInterface) :
    c.dataOut.unread = c.receiveByte.2.toList ++ c.receiveByte.1.dataOut.unread := by
  obtain ⟨s, l, e, packet⟩ := c
  unfold CdcInterface.receiveByte
  split
  · rfl
  · match packet with
    | ⟨none⟩ => rfl
    | ⟨some ⟨[], _⟩⟩ => rfl
    -- the bank goes back with the last byte, and with no byte less
    | ⟨some ⟨[b], _⟩⟩ => rfl
    | ⟨some ⟨b :: b' :: bs, _⟩⟩ => rfl

theorem sendByte_dataOut (bus : Bus) (data : UInt8) (c : CdcInterface) :
    (c.sendByte bus data).cdc.dataOut = c.dataOut := by
  rcases sendByte_outcome bus c data with ⟨-, heq⟩ | ⟨-, -, heq⟩ | ⟨s, -, -, heq⟩ |
    ⟨s, r, -, -, -, heq⟩ <;>
    rw [heq]

theorem usbTask_dataOut (bus : Bus) (c : CdcInterface) :
    (c.usbTask bus).cdc.dataOut = c.dataOut := by
  rcases usbTask_outcome bus c with ⟨r, heq, -⟩ | ⟨-, -, -, heq⟩ | ⟨s, -, -, -, heq⟩ |
    ⟨s, r, -, -, -, -, heq⟩ <;>
    rw [heq]

/-- From the host: the same for the bytes in the bank of the OUT endpoint. -/
theorem step_conserves_out (c : CdcInterface) {e : CdcEvent} (he : e.keepsBanks = true) :
    c.dataOut.unread ++ bytesOf (cdcDriver.step c e).2.accepted =
      (cdcDriver.step c e).2.received.toList ++ (cdcDriver.step c e).1.dataOut.unread := by
  cases e with
  | sendByte bus data =>
    simp [cdcDriver, Transferred.output, bytesOf, sendByte_dataOut]
  | usbTask bus => simp [cdcDriver, Transferred.output, bytesOf, usbTask_dataOut]
  | receiveByte =>
    simp only [cdcDriver, CdcOutput.none, bytesOf, List.flatMap_nil, List.append_nil]
    exact receiveByte_unread c
  | hostOut p =>
    obtain ⟨s, l, e, packet⟩ := c
    match packet with
    | ⟨none⟩ => simp [cdcDriver, CdcOutput.none, bytesOf, OutEndpoint.putPacket, OutEndpoint.unread]
    | ⟨some q⟩ => simp [cdcDriver, CdcOutput.none, bytesOf, OutEndpoint.putPacket]
  | hostIn => simp [cdcDriver, CdcOutput.none, bytesOf]
  | deviceState s => simp [cdcDriver, CdcOutput.none, bytesOf]
  | setLineEncoding l => simp [cdcDriver, CdcOutput.none, bytesOf]
  | configureEndpoints => cases he
  | busReset => cases he

/-! ## Every interleaving -/

section Order

variable {σ ι : Type*} {M : Mealy σ ι CdcOutput} {J : ι → Prop} {content : σ → List UInt8}

/-- What a machine sends in packets, it sends in order. -/
theorem packets_in_order {taken : ι → CdcOutput → List UInt8}
    (h : M.Conserves (fun _ => True) J content taken (fun _ o => bytesOf o.packets)) (s : σ)
    {is : List ι} (his : ∀ i ∈ is, J i) :
    content s ++ (M.drives taken s is).flatten =
      bytesOf ((M.outputs s is).flatMap CdcOutput.packets) ++ content (M.run s is) := by
  have hrun := h.run (s := s) trivial his
  rw [Mealy.drives_output] at hrun
  rw [hrun, bytesOf, List.flatMap_assoc, List.flatMap_def]
  rfl

/-- What it accepts in packets, it gives out in order. -/
theorem received_in_order
    (h : M.Conserves (fun _ => True) J content (fun _ o => bytesOf o.accepted)
      (fun _ o => o.received.toList)) (s : σ) {is : List ι} (his : ∀ i ∈ is, J i) :
    content s ++ bytesOf ((M.outputs s is).flatMap CdcOutput.accepted) =
      (M.outputs s is).filterMap CdcOutput.received ++ content (M.run s is) := by
  have hrun := h.run (s := s) trivial his
  rw [Mealy.drives_output, Mealy.drives_output] at hrun
  rw [List.filterMap_eq_flatMap_toList, bytesOf, List.flatMap_assoc, List.flatMap_def,
    List.flatMap_def]
  exact hrun

end Order

theorem cdcDriver_conserves_in :
    cdcDriver.Conserves (fun _ => True) (·.keepsBanks = true) (fun c => c.dataIn.bank.bytes)
      written (fun _ o => bytesOf o.packets) where
  keeps _ _ _ _ := trivial
  step c _ _ he := step_conserves_in c he

theorem cdcDriver_conserves_out :
    cdcDriver.Conserves (fun _ => True) (·.keepsBanks = true) (fun c => c.dataOut.unread)
      (fun _ o => bytesOf o.accepted) (fun _ o => o.received.toList) where
  keeps _ _ _ _ := trivial
  step c _ _ he := step_conserves_out c he

theorem cdcDriver_in_order {c : CdcInterface} {events : List CdcEvent}
    (hevents : ∀ e ∈ events, e.keepsBanks = true) :
    c.dataIn.bank.bytes ++ (cdcDriver.drives written c events).flatten =
      bytesOf ((cdcDriver.outputs c events).flatMap CdcOutput.packets) ++
        (cdcDriver.run c events).dataIn.bank.bytes :=
  packets_in_order cdcDriver_conserves_in c hevents

theorem cdcDriver_out_order {c : CdcInterface} {events : List CdcEvent}
    (hevents : ∀ e ∈ events, e.keepsBanks = true) :
    c.dataOut.unread ++ bytesOf ((cdcDriver.outputs c events).flatMap CdcOutput.accepted) =
      (cdcDriver.outputs c events).filterMap CdcOutput.received ++
        (cdcDriver.run c events).dataOut.unread :=
  received_in_order cdcDriver_conserves_out c hevents

/-! ## The end of a transfer

The host takes a packet that is not full for the end of a transfer, so a full one must be
followed by another, if need be by one of length zero. -/

/-- The last of some packets is a full one. -/
def EndsFull (ps : List Packet) : Prop :=
  ∃ p, ps.getLast? = some p ∧ p.bytes.length = cdcTxrxEpsize

/-- After a history without errors: no full packet is left with the controller, and a full
one was not the last, for there is more to come. -/
structure Ends (ps : List Packet) (e : InEndpoint) : Prop where
  short : e.armed = true → e.bank.bytes.length < cdcTxrxEpsize
  more : EndsFull ps → e.armed = true ∨ e.bank.bytes ≠ []

theorem endsFull_append_singleton (ps : List Packet) (p : Packet) :
    EndsFull (ps ++ [p]) ↔ p.bytes.length = cdcTxrxEpsize := by
  simp [EndsFull]

/-- Whatever went before: with a byte in the processor's bank there is more to come. -/
theorem Ends.of_write8 (ps : List Packet) {e : InEndpoint} (data : UInt8)
    (hidle : e.armed = false) (hroom : e.bank.bytes.length < cdcTxrxEpsize) :
    Ends ps (e.write8 data) where
  short harmed := by
    rw [InEndpoint.write8_armed, hidle] at harmed
    cases harmed
  more _ := by
    rw [InEndpoint.write8_bytes data hroom]
    exact Or.inr (by simp)

theorem Ends.sendByte (ps : List Packet) {bus : Bus} {data : UInt8} {c : CdcInterface}
    (hok : (c.sendByte bus data).result = .noError) : Ends ps (c.sendByte bus data).cdc.dataIn := by
  rcases sendByte_outcome bus c data with ⟨-, heq⟩ | ⟨hidle, hroom, heq⟩ | ⟨s, -, -, heq⟩ |
    ⟨s, r, -, herror, -, heq⟩
  · rw [heq] at hok
    cases hok
  · rw [heq]
    exact .of_write8 ps data hidle hroom
  · have hroom : InEndpoint.idle.bank.bytes.length < cdcTxrxEpsize := by decide
    rw [heq]
    exact .of_write8 ps data rfl hroom
  · rw [heq] at hok
    exact absurd hok herror

theorem Ends.usbTask {ps : List Packet} {bus : Bus} {c : CdcInterface} (h : Ends ps c.dataIn)
    (hok : (c.usbTask bus).result = .noError) :
    Ends (ps ++ (c.usbTask bus).packets) (c.usbTask bus).cdc.dataIn := by
  rcases usbTask_outcome bus c with ⟨r, heq, -⟩ | ⟨-, -, hroom, heq⟩ | ⟨s, -, -, -, heq⟩ |
    ⟨s, r, -, herror, -, -, heq⟩
  · rw [heq, List.append_nil]
    exact h
  · rw [heq]
    exact ⟨fun _ => hroom, fun _ => Or.inl rfl⟩
  · -- the packet of length zero
    have hroom : InEndpoint.idle.bank.bytes.length < cdcTxrxEpsize := by decide
    rw [heq]
    exact ⟨fun _ => hroom, fun _ => Or.inl rfl⟩
  · rw [heq] at hok
    exact absurd hok herror

theorem Ends.step {c : CdcInterface} {ps : List Packet} (h : Ends ps c.dataIn) {e : CdcEvent}
    (he : e.keepsBanks = true) (hok : (cdcDriver.step c e).2.result = .noError) :
    Ends (ps ++ (cdcDriver.step c e).2.packets) (cdcDriver.step c e).1.dataIn := by
  cases e with
  | sendByte bus data => exact .sendByte _ hok
  | usbTask bus => exact h.usbTask hok
  | hostIn =>
    by_cases harmed : c.dataIn.armed = true
    · simp only [cdcDriver, c.dataIn.takePacket_of_armed harmed, Option.toList_some]
      refine ⟨fun h => absurd h (by decide), fun hfull => ?_⟩
      rw [endsFull_append_singleton] at hfull
      exact absurd hfull (Nat.ne_of_lt (h.short harmed))
    · simpa [cdcDriver, CdcOutput.none,
        c.dataIn.takePacket_of_not_armed (Bool.eq_false_iff.mpr harmed)] using h
  | receiveByte =>
    simpa [cdcDriver, CdcOutput.none, receiveByte_dataIn] using h
  | hostOut p => simpa [cdcDriver, CdcOutput.none] using h
  | deviceState s => simpa [cdcDriver, CdcOutput.none] using h
  | setLineEncoding l => simpa [cdcDriver, CdcOutput.none] using h
  | configureEndpoints => cases he
  | busReset => cases he

theorem ends_run {c : CdcInterface} (hc : c.dataIn = .idle) {events : List CdcEvent}
    (hevents : ∀ e ∈ events, e.keepsBanks = true)
    (hok : ∀ o ∈ cdcDriver.outputs c events, o.result = .noError) :
    Ends ((cdcDriver.outputs c events).flatMap CdcOutput.packets)
      (cdcDriver.run c events).dataIn := by
  induction events using List.reverseRecOn with
  | nil =>
    rw [Mealy.run_nil, hc]
    refine ⟨fun h => absurd h (by decide), ?_⟩
    rintro ⟨p, hp, -⟩
    cases hp
  | append_singleton events e ih =>
    rw [Mealy.outputs_concat] at hok ⊢
    rw [Mealy.run_concat, List.flatMap_append, List.flatMap_singleton]
    have hends := ih (fun x hx => hevents x (List.mem_append_left _ hx))
      fun o ho => hok o (List.mem_append_left _ ho)
    exact hends.step (hevents e (by simp)) (hok _ (by simp))

/-! ## The theorem -/

/-- **The serial link**: however the calls of the firmware, the transactions of the host and
    the changes of the link follow each other, as long as the bus is not reset and the
    device is not configured anew, what the host has got and what is in the bank are the
    bytes for which `CDC_Device_SendByte` returned no error, in order, and what
    `CDC_Device_ReceiveByte` has returned and what is unread are the bytes of the packets
    accepted from the host, in order.  And if the bank is empty after a history without
    errors, the host has seen the end of its transfer. -/
theorem cdcDriver_transport (c : CdcInterface) (events : List CdcEvent)
    (hevents : ∀ e ∈ events, e.keepsBanks = true) :
    c.dataIn.bank.bytes ++ (cdcDriver.drives written c events).flatten =
        bytesOf ((cdcDriver.outputs c events).flatMap CdcOutput.packets) ++
          (cdcDriver.run c events).dataIn.bank.bytes ∧
      c.dataOut.unread ++ bytesOf ((cdcDriver.outputs c events).flatMap CdcOutput.accepted) =
        (cdcDriver.outputs c events).filterMap CdcOutput.received ++
          (cdcDriver.run c events).dataOut.unread ∧
      (c.dataIn = .idle → (∀ o ∈ cdcDriver.outputs c events, o.result = .noError) →
        (cdcDriver.run c events).dataIn = .idle →
        ¬ EndsFull ((cdcDriver.outputs c events).flatMap CdcOutput.packets)) := by
  refine ⟨cdcDriver_in_order hevents, cdcDriver_out_order hevents, fun hc hok hidle hfull => ?_⟩
  have hends := (ends_run hc hevents hok).more hfull
  rw [hidle] at hends
  rcases hends with harmed | hbytes
  · cases harmed
  · exact hbytes rfl

/-- The interface with the link open and nothing on it. -/
def openInterface : CdcInterface where
  deviceState := .configured
  lineEncoding := { baudRateBPS := 9600, charFormat := 0, parityType := 0, dataBits := 8 }
  dataIn := .idle
  dataOut := .idle

/-- A bus on which the time passes, and the host asks for a packet whenever it can or never. -/
def timedBus (asks : Bool) : Bus where
  asksFirst := asks
  frameNumber := 0
  polls := (List.range' 1 101).map fun n =>
    { hostTakes := asks, deviceState := .configured, stalled := false, frameNumber := n }
  goesOn := by cases asks <;> decide +kernel
  noReset := by cases asks <;> decide +kernel

/-- As many bytes as the bank has room for, to a host that takes all it can get. -/
def fullTransfer : List CdcEvent :=
  List.replicate 16 (.sendByte (timedBus true) 'H'.toUInt8) ++ [.usbTask (timedBus true), .hostIn]

/-- The host gets all of them and then a packet of length zero. -/
theorem cdcDriver_transport_full :
    ((cdcDriver.outputs openInterface fullTransfer).flatMap CdcOutput.packets).map Packet.bytes =
        [List.replicate 16 'H'.toUInt8, []] ∧
      (cdcDriver.drives written openInterface fullTransfer).flatten =
        bytesOf ((cdcDriver.outputs openInterface fullTransfer).flatMap CdcOutput.packets) ++
          (cdcDriver.run openInterface fullTransfer).dataIn.bank.bytes ∧
      ¬ EndsFull ((cdcDriver.outputs openInterface fullTransfer).flatMap CdcOutput.packets) := by
  obtain ⟨hin, -, hends⟩ := cdcDriver_transport openInterface fullTransfer (by decide)
  exact ⟨by decide +kernel, hin, hends rfl (by decide +kernel) (by decide +kernel)⟩

end LoccFirmware.Usb
