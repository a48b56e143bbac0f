import LoccFirmware.Usb.ControlHistory

/-!
# What Requests and Interrupts Preserve

The handlers of requests and the general interrupt work on the same variables, and the
interrupt may come while a handler waits.  Between any two events of any history the
variables fit together nevertheless: one of the interrupts for suspension and wake-up is
enabled and the other is not, a device that calls itself configured has a configuration or
at least an address, and a device with a configuration has all its endpoints.  And a host
can open the serial link from every state by two requests.
-/

namespace LoccFirmware.Usb

open LoccFirmware.Automata LoccFirmware.Memory

/-! ## The invariant -/

/-- What holds even while a configuration is being selected. -/
structure Steady (s : ControlState) : Prop where
  oneEnabled : s.suspendEnabled = !s.wakeUpEnabled
  number : s.configurationNumber ≤ 1
  inOrder : ∃ table, InOrder table s.controller

/-- What holds between any two events. -/
structure Sound (s : ControlState) : Prop extends Steady s where
  configured : s.cdc.deviceState = .configured →
    s.configurationNumber ≠ 0 ∨ s.addressEnabled = true
  ready : s.configurationNumber ≠ 0 → Ready s.controller

/-- The variables that the invariant is about. -/
def ControlState.core (s : ControlState) : Bool × Bool × UInt8 × Bool × DeviceState × Controller :=
  (s.suspendEnabled, s.wakeUpEnabled, s.configurationNumber, s.addressEnabled,
    s.cdc.deviceState, s.controller)

theorem Sound.congr {s s' : ControlState} (h : Sound s) (heq : s'.core = s.core) : Sound s' := by
  simp only [ControlState.core, Prod.mk.injEq] at heq
  obtain ⟨hsuspend, hwake, hnumber, haddress, hstate, hcontroller⟩ := heq
  refine ⟨⟨?_, ?_, ?_⟩, ?_, ?_⟩
  · rw [hsuspend, hwake]
    exact h.oneEnabled
  · rw [hnumber]
    exact h.number
  · rw [hcontroller]
    exact h.inOrder
  · rw [hstate, hnumber, haddress]
    exact h.configured
  · rw [hnumber, hcontroller]
    exact h.ready

theorem attachedState_configured {s : ControlState} (h : s.attachedState = .configured) :
    s.configurationNumber ≠ 0 ∨ s.addressEnabled = true := by
  unfold ControlState.attachedState at h
  split_ifs at h with hnumber haddress
  · exact Or.inl hnumber
  · exact Or.inr haddress

/-! ## Interrupts -/

section Interrupts

variable {spare : ℕ}

theorem Steady.interrupt (s : ControlState) (e : BusEvent) (h : Steady s) :
    Steady (s.interrupt (48 + spare) e) := by
  cases e with
  | suspend =>
    rw [ControlState.interrupt]
    split
    · exact ⟨rfl, h.number, h.inOrder⟩
    · exact h
  | wakeUp =>
    rw [ControlState.interrupt]
    split
    · exact ⟨rfl, h.number, h.inOrder⟩
    · exact h
  | reset addressEnabled kept epen stalled start slides =>
    -- the interrupt configures the control endpoint, which puts the others in order, too
    obtain ⟨table, horder⟩ := h.inOrder
    exact ⟨rfl, UInt8.zero_le, (horder.step spare (.reset kept epen start slides)).2⟩

theorem Sound.interrupt (s : ControlState) (e : BusEvent) (h : Sound s) :
    Sound (s.interrupt (48 + spare) e) := by
  cases e with
  | suspend =>
    rw [ControlState.interrupt]
    split
    · exact ⟨⟨rfl, h.number, h.inOrder⟩, DeviceState.noConfusion, h.ready⟩
    · exact h
  | wakeUp =>
    rw [ControlState.interrupt]
    split
    · exact ⟨⟨rfl, h.number, h.inOrder⟩, attachedState_configured, h.ready⟩
    · exact h
  -- after a reset the device is neither configured nor has it a configuration
  | reset addressEnabled kept epen stalled start slides =>
    exact ⟨h.toSteady.interrupt s _, DeviceState.noConfusion, fun hnumber => absurd rfl hnumber⟩

theorem Steady.interrupts {s : ControlState} (h : Steady s) (es : List BusEvent) :
    Steady (s.interrupts (48 + spare) es) :=
  ControlState.interrupts_induction Steady.interrupt h es

theorem Sound.interrupts {s : ControlState} (h : Sound s) (es : List BusEvent) :
    Sound (s.interrupts (48 + spare) es) :=
  ControlState.interrupts_induction Sound.interrupt h es

/-- A configured device that is suspended and woken up again is as it was. -/
theorem Sound.suspend_wakeUp {s : ControlState} (h : Sound s)
    (hstate : s.cdc.deviceState = .configured) (henabled : s.suspendEnabled = true) :
    s.interrupts (48 + spare) [.suspend, .wakeUp] = s := by
  -- both interrupts are taken, the second one because of the first
  have hwake : s.wakeUpEnabled = false := by
    have hone := h.oneEnabled
    rw [henabled] at hone
    simpa using hone.symm
  -- the state that it wakes up in is computed anew, and it is the one it was in
  have hattached : s.attachedState = .configured := by
    unfold ControlState.attachedState
    rcases h.configured hstate with hnumber | haddress
    · rw [if_pos hnumber]
    · rw [haddress, if_pos rfl, ite_self]
  have hsuspended : s.interrupt (48 + spare) .suspend =
      { s with
        suspendEnabled := false
        wakeUpEnabled := true
        cdc := { s.cdc with deviceState := .unattached } } := if_pos henabled
  calc s.interrupts (48 + spare) [.suspend, .wakeUp]
      = (s.interrupt (48 + spare) .suspend).interrupt (48 + spare) .wakeUp := rfl
    _ = { s with
          wakeUpEnabled := false
          suspendEnabled := true
          cdc := { s.cdc with deviceState := s.attachedState } } := by
      rw [hsuspended]
      rfl
    _ = s := by
      rw [hattached, ← hstate, ← hwake, ← henabled]

end Interrupts

/-! ## Requests -/

section Requests

variable {spare : ℕ} {signature : UInt8 → UInt8} {r : Request} {env : Environment}
  {s : ControlState} {handled : Handled}

theorem halt_core (endpointIndex : ℕ) (set : Bool) :
    (s.halt endpointIndex set).core = s.core := by
  unfold ControlState.halt
  split_ifs <;> rfl

/-- Selecting a configuration ends with everything in place, whatever interrupts came in the
    middle. -/
theorem Steady.setConfiguration (h : Steady s) (hvalue : r.wValue.toUInt8 ≤ 1)
    {s' : ControlState} (hs' : s' = ControlState.interrupts (48 + spare)
      { s with configurationNumber := r.wValue.toUInt8 } env.statusStage) :
    Sound (configurationChanged (48 + spare) env
      { s' with cdc := { s'.cdc with deviceState := s'.attachedState } }) := by
  -- until the endpoints are configured, only the weaker invariant holds
  have hselected : Steady { s with configurationNumber := r.wValue.toUInt8 } :=
    ⟨h.oneEnabled, hvalue, h.inOrder⟩
  have hwaited : Steady s' := hs' ▸ hselected.interrupts env.statusStage
  obtain ⟨table, horder⟩ := hwaited.inOrder
  obtain ⟨-, table', horder', -⟩ :=
    horder.cdcConfigureEndpoints spare env.slidesIN env.slidesOUT env.slidesNotification
  exact ⟨⟨hwaited.oneEnabled, hwaited.number, table', horder'⟩, attachedState_configured,
    fun _ => horder.ready spare env.slidesIN env.slidesOUT env.slidesNotification⟩

/-- **One request** keeps the invariant, whatever interrupts come meanwhile. -/
theorem Outcome.sound (h : Outcome (48 + spare) signature r env s handled) (hs : Sound s) :
    Sound handled.state := by
  cases h with
  | getLineEncoding => exact hs.interrupts env.statusStage
  | lineEncodingAbandoned =>
    rw [ControlState.waitForOUT_state]
    exact hs.interrupts _
  | setLineEncoding hindex h s' hs' =>
    rw [ControlState.waitForOUT_state] at hs'
    have hwaited : Sound s' := hs' ▸ hs.interrupts _
    refine Sound.interrupts (hwaited.congr ?_) env.statusStage
    rfl
  | setControlLineState => exact (hs.interrupts env.statusStage).congr rfl
  | sendBreak => exact hs.interrupts env.statusStage
  | getDeviceStatus => exact hs.interrupts env.statusStage
  | getEndpointStatus => exact hs.interrupts env.statusStage
  | remoteWakeup =>
    refine Sound.interrupts (hs.congr ?_) env.statusStage
    rfl
  | halt => exact (hs.congr (halt_core _ _)).interrupts env.statusStage
  | otherFeature => exact hs.interrupts env.statusStage
  -- the address is enabled together with the state that says so
  | setAddress =>
    have hwaited : Sound (ControlState.interrupts (48 + spare)
        { s with address := r.wValue.toUInt8 &&& 0x7F } env.statusStage) := by
      refine Sound.interrupts (hs.congr ?_) env.statusStage
      rfl
    exact ⟨⟨hwaited.oneEnabled, hwaited.number, hwaited.inOrder⟩, fun _ => Or.inr rfl,
      hwaited.ready⟩
  | getDescriptor =>
    rw [ControlState.waitForOUT_state]
    exact hs.interrupts _
  | getConfiguration => exact hs.interrupts env.statusStage
  | setConfiguration h hvalue s' hs' => exact hs.toSteady.setConfiguration hvalue hs'

theorem process_sound (hs : Sound s) :
    Sound (processControlRequest (48 + spare) signature r env s).state := by
  rcases process_outcome (48 + spare) signature r env s with ⟨-, hout⟩ | ⟨-, heq⟩
  · exact hout.sound (hs.congr rfl)
  · rw [heq]
    exact hs.congr rfl

end Requests

/-! ## Histories -/

theorem sound_initial (spare : ℕ) (start : ℕ → ℕ) (slides : ℕ → Slides) :
    Sound (.initial (48 + spare) start slides) where
  oneEnabled := rfl
  number := UInt8.zero_le
  inOrder := (initDevice_inOrder spare start slides).2
  configured := DeviceState.noConfusion
  ready hnumber := absurd rfl hnumber

theorem sound_run (spare : ℕ) (signature : UInt8 → UInt8) (start : ℕ → ℕ) (slides : ℕ → Slides)
    (history : List ControlEvent) :
    Sound ((control (48 + spare) signature).run (.initial (48 + spare) start slides) history) := by
  -- induction on the history, with the invariant between any two events
  refine Mealy.run_induction (fun s e hs => ?_) (sound_initial spare start slides) history
  cases e with
  | request setup env => exact process_sound hs
  | interrupt e => exact hs.interrupt s e

/-! ## Opening the link -/

/-- A configuration is selected without interrupts. -/
theorem process_setConfiguration {capacity : ℕ} {signature : UInt8 → UInt8} {r : Request}
    {env : Environment} (s : ControlState) (h : r.Is standardToDevice reqSetConfiguration)
    (hvalue : r.wValue.toUInt8 = 1) (hquiet : env.statusStage = []) :
    (processControlRequest capacity signature r env s).state.configurationNumber = 1 ∧
      (processControlRequest capacity signature r env s).state.cdc.deviceState = .configured := by
  have hstandard : standardRequest capacity signature r env s.setupReceived =
      setConfiguration capacity r env s.setupReceived := by
    rw [standardRequest, h.2, if_neg (by decide), if_neg (by decide), if_neg (by decide),
      if_neg (by decide), if_neg (by decide), if_pos rfl, if_pos h.1]
  have hset : ∃ handled, setConfiguration capacity r env s.setupReceived = some handled ∧
      handled.state.configurationNumber = 1 ∧ handled.state.cdc.deviceState = .configured := by
    rw [setConfiguration, hvalue, if_neg (by decide)]
    refine ⟨_, rfl, ?_⟩
    simp [clearStatusStage, hquiet, ControlState.interrupts, configurationChanged,
      ControlState.attachedState, CdcInterface.configureEndpoints]
  obtain ⟨handled, hsome, hnumber, hstate⟩ := hset
  rw [process_of_standard h (by decide) (hstandard.trans hsome)]
  exact ⟨hnumber, hstate⟩

/-- A line encoding is set without interrupts. -/
theorem process_setLineEncoding {capacity : ℕ} {signature : UInt8 → UInt8} {r : Request}
    {env : Environment} (s : ControlState) (hindex : r.wIndex = 0)
    (h : r.Is classToInterface cdcReqSetLineEncoding) (hquiet : env.statusStage = [])
    (hcome : env.outRounds = []) :
    (processControlRequest capacity signature r env s).state.configurationNumber =
        s.configurationNumber ∧
      (processControlRequest capacity signature r env s).state.cdc =
        { s.cdc with lineEncoding := .ofPacket env.out } := by
  have hset : ∃ handled, cdcProcessControlRequest capacity r env s.setupReceived = some handled ∧
      handled.state.configurationNumber = s.configurationNumber ∧
      handled.state.cdc = { s.cdc with lineEncoding := .ofPacket env.out } := by
    rw [cdcProcessControlRequest, if_neg (not_not.mpr hindex), h.2, if_neg (by decide),
      if_pos rfl, if_pos h.1, hcome]
    refine ⟨_, rfl, ?_⟩
    simp [clearStatusStage, hquiet, ControlState.interrupts, ControlState.waitForOUT,
      ControlState.setupReceived]
  obtain ⟨handled, hsome, hnumber, hcdc⟩ := hset
  rw [processControlRequest, hsome]
  exact ⟨hnumber, hcdc⟩

/-- **After every history** of requests and interrupts, with interrupts also while requests
    wait for the host:
    - exactly one of the interrupts for suspension and wake-up is enabled;
    - the configuration number is one that the device has, and if it is not zero, all four
      endpoints are enabled and each has its own memory;
    - a device that calls itself configured has a configuration or at least an address, and
      if it is suspended and woken up again, nothing has changed;
    - whatever state that is, the host opens the serial link by selecting the configuration
      and setting a line encoding with a baud rate, if nothing happens to the bus
      meanwhile. -/
theorem control_safety (spare : ℕ) (signature : UInt8 → UInt8) (start : ℕ → ℕ)
    (slides : ℕ → Slides) (history : List ControlEvent) :
    let s := (control (48 + spare) signature).run (.initial (48 + spare) start slides) history
    s.suspendEnabled = !s.wakeUpEnabled ∧
    s.configurationNumber ≤ 1 ∧ (s.configurationNumber ≠ 0 → Ready s.controller) ∧
    (s.cdc.deviceState = .configured →
      (s.configurationNumber ≠ 0 ∨ s.addressEnabled = true) ∧
      (s.suspendEnabled = true → s.interrupts (48 + spare) [.suspend, .wakeUp] = s)) ∧
    (∀ (r r' : Request) (env env' : Environment),
      r.Is standardToDevice reqSetConfiguration → r.wValue.toUInt8 = 1 →
      r'.Is classToInterface cdcReqSetLineEncoding → r'.wIndex = 0 →
      env.statusStage = [] → env'.statusStage = [] → env'.outRounds = [] →
      let opened := (processControlRequest (48 + spare) signature r' env'
        (processControlRequest (48 + spare) signature r env s).state).state
      Ready opened.controller ∧
        (opened.cdc.isOpen = true ↔ (LineEncoding.ofPacket env'.out).baudRateBPS ≠ 0)) := by
  intro s
  have hsound : Sound s := sound_run spare signature start slides history
  refine ⟨hsound.oneEnabled, hsound.number, hsound.ready,
    fun hstate => ⟨hsound.configured hstate, hsound.suspend_wakeUp hstate⟩, ?_⟩
  intro r r' env env' hr hvalue hr' hindex hquiet hquiet' hcome opened
  obtain ⟨hnumber, hstate⟩ := process_setConfiguration s hr hvalue hquiet
  obtain ⟨hnumber', hcdc⟩ := process_setLineEncoding
    (processControlRequest (48 + spare) signature r env s).state hindex hr' hquiet' hcome
  -- that the endpoints are ready follows from the invariant once more
  have hopened : Sound opened := process_sound (process_sound hsound)
  refine ⟨hopened.ready ?_, ?_⟩
  · rw [hnumber', hnumber]
    decide
  · rw [hcdc, CdcInterface.isOpen, hstate]
    simp

end LoccFirmware.Usb
