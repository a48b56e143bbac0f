import LoccFirmware.Usb.ControlWrite

/-!
# A Control Transfer and Its Host

A host that keeps to the protocol asks for packets until it has got one that is not full,
or as many bytes as it wanted, and then begins the status stage.  Together with this host
the function of the data stage comes to its end, with all the requested bytes delivered,
on every schedule in which the function and the host have their turns often enough.

A host that wants no bytes at all has no data stage and begins its status stage with an IN
transaction, so it never sends the packet that the function waits for.
-/

namespace LoccFirmware.Usb

open LoccFirmware.Automata

/-! ## The host -/

/-- The function and the packets that the host has got from it. -/
structure Transfer where
  write : ControlWrite
  packets : List (List UInt8)
  deriving DecidableEq, Repr

/-- The two sides of a transfer. -/
inductive Side where
  | device
  | host
  deriving DecidableEq, Repr

/-- A pass of the function, or a transaction of the host. -/
inductive TransferEvent where
  | pass (s : DeviceState)
  | host
  deriving DecidableEq, Repr

/-- Whose turn an event is. -/
def TransferEvent.side : TransferEvent → Side
  | .pass _ => .device
  | .host => .host

/-- The bus works. -/
def TransferEvent.Attached : TransferEvent → Prop
  | .pass s => s ≠ .unattached ∧ s ≠ .suspended
  | .host => True

/-- The host has got a packet that is not full, or all the bytes that it wanted. -/
def finished (wLength : ℕ) (packets : List (List UInt8)) : Bool :=
  (packets.getLast?.any fun p => decide (p.length < controlEndpointSize)) ||
    decide (wLength ≤ packets.flatten.length)

/-- A turn of the host: the status stage if it has finished, or another packet.  Without a
data stage, the status stage is an IN transaction. -/
def Transfer.hostTurn (wLength : ℕ) (t : Transfer) : Transfer :=
  if wLength ≠ 0 ∧ finished wLength t.packets then { t with write := t.write.hostOut }
  else { write := t.write.hostIn.1, packets := t.packets ++ t.write.hostIn.2.toList }

/-- A transfer of `wLength` bytes at most. -/
def transfer (wLength : ℕ) : Mealy Transfer TransferEvent Unit where
  step t
    | .pass s => ({ t with write := t.write.pass s }, ())
    | .host => (t.hostTurn wLength, ())

/-- A transfer that begins. -/
def Transfer.start (buffer : List UInt8) (wLength : ℕ) : Transfer where
  write := .start buffer wLength
  packets := []

/-! ## The invariant -/

/-- The host has what the function has sent, and the two agree where they are. -/
structure Underway (requested : List UInt8) (wLength : ℕ) (t : Transfer) : Prop where
  history : ∃ events, WriteHistory requested events t.packets t.write
  fits : requested.length ≤ wLength
  quiet : t.write.endpoint.setupReceived = false
  status : t.write.endpoint.outReceived = true → finished wLength t.packets = true
  goes_on : t.write.endpoint.armed = false → finished wLength t.packets = false →
    t.write.goesOn = true
  awaits : t.write.position = .awaiting →
    t.write.endpoint.outReceived = true ∨ t.write.goesOn = false
  returned : ∀ r, t.write.position = .returned r →
    r = .noError ∧ t.write.endpoint.outReceived = true

section Invariant

variable {requested : List UInt8} {wLength : ℕ} {t : Transfer}

/-- A host that has finished has got everything. -/
theorem Underway.complete (h : Underway requested wLength t)
    (hfinished : finished wLength t.packets = true) : t.packets.flatten = requested := by
  obtain ⟨events, hhistory⟩ := h.history
  have hdata := hhistory.data
  rw [finished, Bool.or_eq_true, decide_eq_true_eq] at hfinished
  rcases hfinished with hshort | hlength
  · -- the last packet was short
    obtain ⟨p, hp, hlt⟩ := (Option.any_eq_true _ _).mp hshort
    rw [List.getLast?_eq_getElem?] at hp
    obtain ⟨-, hgo, harmed⟩ := (hhistory.got _ p hp).2 (of_decide_eq_true hlt)
    have hrest : t.write.rest = [] := by
      simp [ControlWrite.goesOn] at hgo
      exact hgo.1
    rwa [hhistory.idle harmed, hrest, List.append_nil, List.append_nil] at hdata
  · -- there are no more bytes than it wanted
    have hfits := h.fits
    rw [← hdata, List.append_assoc, List.length_append] at hfits
    have hnone : t.write.endpoint.bank ++ t.write.rest = [] :=
      List.length_eq_zero_iff.mp (by omega)
    rwa [List.append_assoc, hnone, List.append_nil] at hdata

theorem underway_start (buffer : List UInt8) (hwanted : wLength ≠ 0) :
    Underway (buffer.take wLength) wLength (.start buffer wLength) := by
  have hposition : (ControlWrite.start buffer wLength).position = .sending := by
    unfold ControlWrite.start
    split_ifs <;> rfl
  refine ⟨⟨[], writeHistory_start buffer wLength⟩, List.length_take_le _ _, ?_, ?_, ?_, ?_, ?_⟩
  · unfold Transfer.start ControlWrite.start
    dsimp only
    split_ifs <;> rfl
  · unfold Transfer.start ControlWrite.start
    dsimp only
    split_ifs <;> simp
  · -- nothing is armed, so there is something to send
    unfold Transfer.start ControlWrite.start
    dsimp only
    split_ifs with hlong hzero
    · have hne : buffer ≠ [] := by
        rintro rfl
        simp at hlong
      simp [ControlWrite.goesOn, hwanted, hne]
    · simp
    · have hne : buffer ≠ [] := fun hnil => hzero (by simp [hnil])
      simp [ControlWrite.goesOn, hne]
  · intro hawaits
    have hsending : (Transfer.start buffer wLength).write.position = .sending := hposition
    rw [hsending] at hawaits
    cases hawaits
  · intro r hr
    have hsending : (Transfer.start buffer wLength).write.position = .sending := hposition
    rw [hsending] at hr
    cases hr

/-- What a pass does while the bus works and no other transfer begins. -/
theorem pass_cases (w : ControlWrite) {s : DeviceState} (hun : s ≠ .unattached)
    (hsus : s ≠ .suspended) (hquiet : w.endpoint.setupReceived = false) :
    (w.position = .sending ∧ (w.goesOn = false ∨ w.endpoint.outReceived = true) ∧
        w.pass s = { w with position := .awaiting }) ∨
      (w.position = .sending ∧ w.goesOn = true ∧ w.endpoint.outReceived = false ∧
        w.endpoint.armed = false ∧ w.pass s = w.sendPacket) ∨
      (w.position = .awaiting ∧ w.endpoint.outReceived = true ∧
        w.pass s = { w with position := .returned .noError }) ∨
      ((w.position = .sending → w.endpoint.armed = true) ∧ w.pass s = w ∧
        (w.endpoint.outReceived = true → ∃ r, w.position = .returned r)) := by
  cases hposition : w.position with
  | sending =>
    simp only [ControlWrite.pass, hposition, hun, hsus, hquiet, if_false]
    cases hgo : w.goesOn with
    | false => simp
    | true =>
      cases hout : w.endpoint.outReceived with
      | true => simp
      | false =>
        cases harmed : w.endpoint.armed <;> simp
  | awaiting =>
    simp only [ControlWrite.pass, hposition, hun, hsus, if_false]
    cases hout : w.endpoint.outReceived <;> simp
  | returned r =>
    simp [ControlWrite.pass, hposition]

/-- One pass. -/
theorem Underway.pass (h : Underway requested wLength t) {s : DeviceState}
    (hun : s ≠ .unattached) (hsus : s ≠ .suspended) :
    Underway requested wLength { t with write := t.write.pass s } := by
  obtain ⟨events, hhistory⟩ := h.history
  have hhistory' : ∃ events, WriteHistory requested events t.packets (t.write.pass s) :=
    ⟨_, hhistory.pass s⟩
  rcases pass_cases t.write hun hsus h.quiet with
    ⟨-, hcause, hpass⟩ | ⟨hsending, hgo, hout, harmed, hpass⟩ | ⟨-, hout, hpass⟩ | ⟨-, hpass, -⟩
  -- the data stage is over
  · rw [hpass] at hhistory' ⊢
    refine ⟨hhistory', h.fits, h.quiet, h.status, h.goes_on, fun _ => hcause.symm, fun r hr => ?_⟩
    cases hr
  -- a packet is handed over, so the bank is not idle any more
  · rw [hpass] at hhistory' ⊢
    refine ⟨hhistory', h.fits, h.quiet, h.status, fun hidle => (nomatch hidle), fun hawaits => ?_,
      fun r hr => ?_⟩
    · cases hsending.symm.trans hawaits
    · cases hsending.symm.trans hr
  -- the function returns
  · rw [hpass] at hhistory' ⊢
    refine ⟨hhistory', h.fits, h.quiet, h.status, h.goes_on, fun hawaits => (nomatch hawaits),
      fun r hr => ?_⟩
    cases hr
    exact ⟨rfl, hout⟩
  · rw [hpass]
    exact h

/-- The host asks for a packet. -/
theorem Underway.hostIn (h : Underway requested wLength t)
    (hunfinished : finished wLength t.packets = false) :
    Underway requested wLength
      { write := t.write.hostIn.1, packets := t.packets ++ t.write.hostIn.2.toList } := by
  obtain ⟨events, hhistory⟩ := h.history
  have hhistory' := hhistory.hostIn
  -- a host that has not finished has not begun the status stage
  have hout : t.write.endpoint.outReceived = false := by
    by_contra hout
    rw [h.status (by simpa using hout)] at hunfinished
    cases hunfinished
  by_cases harmed : t.write.endpoint.armed = true
  · rw [ControlWrite.hostIn, if_pos harmed] at hhistory' ⊢
    refine ⟨⟨_, hhistory'⟩, h.fits, h.quiet, fun hsent => ?_, fun _ hstill => ?_, h.awaits,
      h.returned⟩
    · cases hout.symm.trans hsent
    · -- the packet was a full one
      have hlong : t.write.endpoint.bank.length = controlEndpointSize := by
        have hsize := hhistory.size
        simp [finished] at hstill
        omega
      have hfull := hhistory.full harmed
      rw [decide_eq_true hlong] at hfull
      simp [ControlWrite.goesOn, hfull]
  · rw [ControlWrite.hostIn, if_neg harmed, Option.toList_none, List.append_nil]
    exact h

/-- The host begins the status stage. -/
theorem Underway.hostOut (h : Underway requested wLength t)
    (hfinished : finished wLength t.packets = true) :
    Underway requested wLength { t with write := t.write.hostOut } := by
  obtain ⟨events, hhistory⟩ := h.history
  have hnow : .hostOut ∈ events ++ [WriteEvent.hostOut] :=
    List.mem_append_right _ List.mem_cons_self
  have hhistory' : WriteHistory requested (events ++ [.hostOut]) t.packets t.write.hostOut :=
    hhistory.flags rfl rfl rfl rfl (fun _ => hnow)
      (fun hsetup => List.mem_append_left _ (hhistory.setup hsetup)) (hhistory.returned_append _)
  refine ⟨⟨_, hhistory'⟩, h.fits, h.quiet, fun _ => hfinished, fun _ hunfinished => ?_,
    fun _ => Or.inl rfl, fun r hr => ⟨(h.returned r hr).1, rfl⟩⟩
  cases hfinished.symm.trans hunfinished

end Invariant

/-! ## Progress -/

/-- The packets that the function has still to hand over. -/
def packetsLeft (w : ControlWrite) : ℕ :=
  if w.goesOn then w.rest.length / controlEndpointSize + 1 else 0

/-- The turns that are still needed before the status stage has been reached. -/
def turnsLeft (wLength : ℕ) (t : Transfer) : ℕ :=
  if finished wLength t.packets then 3
  else 4 + 2 * packetsLeft t.write + if t.write.endpoint.armed then 1 else 0

/-- The turns that are still needed. -/
def transferRank (wLength : ℕ) (t : Transfer) : ℕ :=
  match t.write.position with
  | .returned _ => 0
  | .awaiting => if t.write.endpoint.outReceived then 1 else turnsLeft wLength t
  | .sending => if t.write.endpoint.outReceived then 2 else turnsLeft wLength t

/-- The side whose turn is needed next. -/
def transferWaitsFor (wLength : ℕ) (t : Transfer) : Side :=
  if t.write.endpoint.outReceived then .device
  else if finished wLength t.packets then .host
  else if t.write.endpoint.armed then .host
  else .device

section Progress

variable {requested : List UInt8} {wLength : ℕ} {t : Transfer}

theorem packetsLeft_le (w : ControlWrite) :
    packetsLeft w ≤ w.rest.length / controlEndpointSize + 1 := by
  unfold packetsLeft
  split
  · exact Nat.le_refl _
  · exact Nat.zero_le _

theorem turnsLeft_le (harmed : t.write.endpoint.armed = false) :
    turnsLeft wLength t ≤ 4 + 2 * packetsLeft t.write := by
  unfold turnsLeft
  split
  · omega
  · simp [harmed]

theorem transferRank_eq_turnsLeft (hout : t.write.endpoint.outReceived = false)
    (hposition : ∀ r, t.write.position ≠ .returned r) :
    transferRank wLength t = turnsLeft wLength t := by
  cases h : t.write.position with
  | returned r => exact absurd h (hposition r)
  | sending => simp [transferRank, h, hout]
  | awaiting => simp [transferRank, h, hout]

/-- A rank of zero is that of a function that has returned. -/
theorem returned_of_transferRank (h : transferRank wLength t = 0) :
    ∃ r, t.write.position = .returned r := by
  have hpos : turnsLeft wLength t ≠ 0 := by
    unfold turnsLeft
    split <;> omega
  cases hposition : t.write.position with
  | returned r => exact ⟨r, rfl⟩
  | sending =>
    simp only [transferRank, hposition] at h
    split at h
    · cases h
    · exact absurd h hpos
  | awaiting =>
    simp only [transferRank, hposition] at h
    split at h
    · cases h
    · exact absurd h hpos

/-- A packet that is handed over is one less. -/
theorem packetsLeft_sendPacket {w : ControlWrite} (hbank : w.endpoint.bank = [])
    (hgo : w.goesOn = true) : packetsLeft w.sendPacket + 1 ≤ packetsLeft w := by
  obtain ⟨hdata, -, hlast, hlength⟩ := sendPacket_spec hbank
  have hsum := congrArg List.length hdata
  rw [List.length_append] at hsum
  have hbefore : packetsLeft w = w.rest.length / controlEndpointSize + 1 := if_pos hgo
  by_cases hmany : controlEndpointSize ≤ w.rest.length
  · -- a full packet
    have hafter := packetsLeft_le w.sendPacket
    have hdiv : (w.rest.length - controlEndpointSize) / controlEndpointSize + 1 =
        w.rest.length / controlEndpointSize := by
      simp only [controlEndpointSize] at hmany ⊢
      omega
    rw [hlength, hdiv] at hafter
    rw [hbefore]
    exact Nat.succ_le_succ hafter
  · -- the last one
    have hshort : w.sendPacket.endpoint.bank.length < controlEndpointSize := by omega
    have hfull : w.sendPacket.lastPacketFull = false := decide_eq_false (Nat.ne_of_lt hshort)
    have hstop : w.sendPacket.goesOn = false := by
      simp [ControlWrite.goesOn, hlast hshort, hfull]
    have hafter : packetsLeft w.sendPacket = 0 := by
      rw [packetsLeft, hstop]
      rfl
    rw [hafter, hbefore]
    exact Nat.le_add_left _ _

/-- Where nothing is wanted of the function, it has returned. -/
theorem Underway.rank_eq_zero (h : Underway requested wLength t)
    (hwaits : transferWaitsFor wLength t = .device)
    (hsending : t.write.position = .sending → t.write.endpoint.armed = true)
    (hout : t.write.endpoint.outReceived = true → ∃ r, t.write.position = .returned r) :
    transferRank wLength t = 0 := by
  by_cases hsent : t.write.endpoint.outReceived = true
  · obtain ⟨r, hr⟩ := hout hsent
    simp [transferRank, hr]
  · -- otherwise a packet is wanted, and none is there
    simp only [transferWaitsFor, hsent] at hwaits
    by_cases hfinished : finished wLength t.packets = true
    · simp [hfinished] at hwaits
    · have harmed : t.write.endpoint.armed = false := by
        by_contra harmed
        simp [hfinished, harmed] at hwaits
      have hgo := h.goes_on harmed (by simpa using hfinished)
      cases hposition : t.write.position with
      | sending =>
        rw [hsending hposition] at harmed
        cases harmed
      | awaiting =>
        rcases h.awaits hposition with hsent' | hstop
        · exact absurd hsent' hsent
        · cases hgo.symm.trans hstop
      | returned r => simp [transferRank, hposition]

/-- A pass is progress if the function is waited for, and changes nothing if the host
    is. -/
theorem Underway.rank_pass (h : Underway requested wLength t) {s : DeviceState}
    (hun : s ≠ .unattached) (hsus : s ≠ .suspended) :
    (transferWaitsFor wLength t = .device → transferRank wLength t ≠ 0 →
      transferRank wLength { t with write := t.write.pass s } < transferRank wLength t) ∧
    (transferWaitsFor wLength t = .host →
      transferRank wLength { t with write := t.write.pass s } = transferRank wLength t ∧
      transferWaitsFor wLength { t with write := t.write.pass s } = .host) ∧
    transferRank wLength { t with write := t.write.pass s } ≤ transferRank wLength t := by
  obtain ⟨events, hhistory⟩ := h.history
  rcases pass_cases t.write hun hsus h.quiet with
    ⟨hposition, hcause, hpass⟩ | ⟨hposition, hgo, hout, harmed, hpass⟩ |
    ⟨hposition, hout, hpass⟩ | ⟨hsending, hpass, hreturned⟩
  · -- on to the status stage
    rw [hpass]
    by_cases hout : t.write.endpoint.outReceived = true
    · simp [transferRank, transferWaitsFor, hposition, hout]
    -- everything is handed over, so it is the host that is waited for
    · have hstop : t.write.goesOn = false := hcause.resolve_right hout
      have hhost : transferWaitsFor wLength t = .host := by
        by_cases hfinished : finished wLength t.packets = true
        · simp [transferWaitsFor, hout, hfinished]
        · have harmed : t.write.endpoint.armed = true := by
            by_contra harmed
            have hgo := h.goes_on (by simpa using harmed) (by simpa using hfinished)
            cases hgo.symm.trans hstop
          simp [transferWaitsFor, hout, hfinished, harmed]
      have hsame : transferRank wLength { t with write := { t.write with position := .awaiting } } =
          transferRank wLength t := by
        simp [transferRank, turnsLeft, packetsLeft, ControlWrite.goesOn, hposition, hout]
      refine ⟨fun hdevice => ?_, fun _ => ⟨hsame, hhost⟩, Nat.le_of_eq hsame⟩
      cases hhost.symm.trans hdevice
  · -- a packet is handed over
    have hleft := packetsLeft_sendPacket (hhistory.idle harmed) hgo
    have hsame : t.write.sendPacket.position = .sending := hposition
    have hout' : t.write.sendPacket.endpoint.outReceived = false := hout
    have harmed' : t.write.sendPacket.endpoint.armed = true := rfl
    rw [hpass]
    simp only [transferRank, transferWaitsFor, turnsLeft, hposition, hsame, hout, hout', harmed,
      harmed']
    by_cases hfinished : finished wLength t.packets = true
    · simp [hfinished]
    · simp only [hfinished]
      refine ⟨fun _ _ => ?_, fun hhost => ?_, ?_⟩
      · simp
        omega
      · cases hhost
      · simp
        omega
  · -- the function returns
    rw [hpass]
    simp [transferRank, transferWaitsFor, hposition, hout]
  · rw [hpass]
    exact ⟨fun hdevice hrank => absurd (h.rank_eq_zero hdevice hsending hreturned) hrank,
      fun hhost => ⟨rfl, hhost⟩, Nat.le_refl _⟩

/-- A turn of the host is progress if the host is waited for, and changes nothing if the
    function is. -/
theorem Underway.rank_hostTurn (h : Underway requested wLength t) (hwanted : wLength ≠ 0) :
    (transferWaitsFor wLength t = .host →
      transferRank wLength (t.hostTurn wLength) < transferRank wLength t) ∧
    (transferWaitsFor wLength t = .device →
      transferRank wLength (t.hostTurn wLength) = transferRank wLength t ∧
      transferWaitsFor wLength (t.hostTurn wLength) = .device) := by
  have hunreturned (hout : t.write.endpoint.outReceived = false) (r : ControlStreamResult) :
      t.write.position ≠ .returned r := by
    intro hr
    cases hout.symm.trans (h.returned r hr).2
  by_cases hfinished : finished wLength t.packets = true
  -- a host that has finished sends the packet of the status stage, perhaps once more
  · rw [Transfer.hostTurn, if_pos ⟨hwanted, hfinished⟩]
    cases hout : t.write.endpoint.outReceived with
    | true =>
      have hsame : t.write.hostOut = t.write := by
        rw [ControlWrite.hostOut, ← hout]
      simp [hsame, transferWaitsFor, hout]
    | false =>
      refine ⟨fun _ => ?_, fun hdevice => ?_⟩
      · cases hposition : t.write.position with
        | returned r => exact absurd hposition (hunreturned hout r)
        | sending =>
          simp [transferRank, turnsLeft, ControlWrite.hostOut, hposition, hout, hfinished]
        | awaiting =>
          simp [transferRank, turnsLeft, ControlWrite.hostOut, hposition, hout, hfinished]
      · simp [transferWaitsFor, hout, hfinished] at hdevice
  · have hout : t.write.endpoint.outReceived = false := by
      by_contra hout
      exact hfinished (h.status (by simpa using hout))
    rw [Transfer.hostTurn, if_neg (fun hboth => hfinished hboth.2)]
    by_cases harmed : t.write.endpoint.armed = true
    · rw [ControlWrite.hostIn, if_pos harmed]
      refine ⟨fun _ => ?_, fun hdevice => ?_⟩
      · -- one packet more, which may be the last one
        set t' : Transfer :=
          { write := { t.write with
              endpoint := { t.write.endpoint with bank := [], armed := false } }
            packets := t.packets ++ (some t.write.endpoint.bank).toList } with ht'
        have hsame : transferRank wLength t' = turnsLeft wLength t' :=
          transferRank_eq_turnsLeft hout (hunreturned hout)
        have hafter : turnsLeft wLength t' ≤ 4 + 2 * packetsLeft t.write := turnsLeft_le rfl
        have hbefore : transferRank wLength t = 4 + 2 * packetsLeft t.write + 1 := by
          rw [transferRank_eq_turnsLeft hout (hunreturned hout)]
          simp [turnsLeft, hfinished, harmed]
        omega
      · simp [transferWaitsFor, hout, hfinished, harmed] at hdevice
    · rw [ControlWrite.hostIn, if_neg harmed, Option.toList_none, List.append_nil]
      refine ⟨fun hhost => ?_, fun hdevice => ⟨rfl, hdevice⟩⟩
      simp [transferWaitsFor, hout, hfinished, harmed] at hhost

/-- Both sides together get on. -/
theorem transfer_progress (hwanted : wLength ≠ 0) :
    (transfer wLength).Progress (Underway requested wLength) TransferEvent.Attached
      TransferEvent.side (transferRank wLength) (transferWaitsFor wLength) where
  keeps t e h hok := by
    cases e with
    | pass s => exact h.pass hok.1 hok.2
    | host =>
      show Underway requested wLength (t.hostTurn wLength)
      by_cases hfinished : finished wLength t.packets = true
      · rw [Transfer.hostTurn, if_pos ⟨hwanted, hfinished⟩]
        exact h.hostOut hfinished
      · rw [Transfer.hostTurn, if_neg (fun hboth => hfinished hboth.2)]
        exact h.hostIn (by simpa using hfinished)
  le t e h hok := by
    cases e with
    | pass s => exact (h.rank_pass hok.1 hok.2).2.2
    | host =>
      have hturn := h.rank_hostTurn hwanted
      cases hwaits : transferWaitsFor wLength t with
      | device => exact Nat.le_of_eq (hturn.2 hwaits).1
      | host => exact Nat.le_of_lt (hturn.1 hwaits)
  lowers t e h hok hrank hside := by
    cases e with
    | pass s => exact (h.rank_pass hok.1 hok.2).1 hside.symm hrank
    | host => exact (h.rank_hostTurn hwanted).1 hside.symm
  waits t e h hok hrank hside hsame := by
    cases e with
    | pass s =>
      cases hwaits : transferWaitsFor wLength t with
      | device => exact absurd hwaits.symm hside
      | host => exact ((h.rank_pass hok.1 hok.2).2.1 hwaits).2
    | host =>
      cases hwaits : transferWaitsFor wLength t with
      | device => exact ((h.rank_hostTurn hwanted).2 hwaits).2
      | host => exact absurd hwaits.symm hside

end Progress

/-! ## The end of a transfer -/

theorem transferRank_start (buffer : List UInt8) (wLength : ℕ) (hwanted : wLength ≠ 0) :
    transferRank wLength (.start buffer wLength) ≤
      2 * ((buffer.take wLength).length / controlEndpointSize) + 6 := by
  have hunfinished : finished wLength [] = false := by simp [finished, hwanted]
  have hdata := (writeHistory_start buffer wLength).data
  have hleft := packetsLeft_le (ControlWrite.start buffer wLength)
  -- only an empty buffer has a packet with the controller from the start
  have hrank : transferRank wLength (.start buffer wLength) ≤
      4 + 2 * packetsLeft (ControlWrite.start buffer wLength) ∨
      transferRank wLength (.start buffer wLength) = 5 := by
    unfold Transfer.start ControlWrite.start
    dsimp only
    split_ifs with hlong hzero
    · exact Or.inl (by simp [transferRank, turnsLeft, hunfinished])
    · exact Or.inr (by simp [transferRank, turnsLeft, hunfinished, packetsLeft,
        ControlWrite.goesOn])
    · exact Or.inl (by simp [transferRank, turnsLeft, hunfinished])
  have hlength := congrArg List.length hdata
  rw [List.flatten_nil, List.nil_append, List.length_append] at hlength
  have hmono : (ControlWrite.start buffer wLength).rest.length / controlEndpointSize ≤
      (buffer.take wLength).length / controlEndpointSize :=
    Nat.div_le_div_right (by omega)
  rcases hrank with hrank | hrank <;> omega

/-- **A transfer ends**: on every schedule of passes and host turns, in as many rounds with a
    turn of each side as the given number, all requested bytes have reached the host and
    the function has returned without an error. -/
theorem transfer_completes (buffer : List UInt8) {wLength : ℕ} (hwanted : wLength ≠ 0)
    {rounds : List (List TransferEvent)} (hattached : ∀ r ∈ rounds, ∀ e ∈ r, e.Attached)
    (hturns : ∀ r ∈ rounds, ∀ side, ∃ e ∈ r, e.side = side)
    (hmany : 2 * ((buffer.take wLength).length / controlEndpointSize) + 6 ≤ rounds.length) :
    ((transfer wLength).run (.start buffer wLength) rounds.flatten).write.position =
        .returned .noError ∧
      ((transfer wLength).run (.start buffer wLength) rounds.flatten).packets.flatten =
        buffer.take wLength := by
  have hstart := underway_start buffer hwanted
  have hok : ∀ e ∈ rounds.flatten, e.Attached := by
    intro e he
    obtain ⟨r, hr, her⟩ := List.mem_flatten.mp he
    exact hattached r hr e her
  -- each round lowers the rank, and a rank of zero means that the function has returned
  have hunderway := (transfer_progress hwanted).run_inv hstart hok
  have hrank := (transfer_progress hwanted).rounds hstart hattached hturns
  have hbound := transferRank_start buffer wLength hwanted
  obtain ⟨r, hposition⟩ := returned_of_transferRank (Nat.le_zero.mp (Nat.le_trans hrank (by omega)))
  obtain ⟨rfl, hout⟩ := hunderway.returned r hposition
  exact ⟨hposition, hunderway.complete (hunderway.status hout)⟩

end LoccFirmware.Usb
