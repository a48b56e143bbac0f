import LoccFirmware.Automata.Register
import LoccFirmware.Usb.RequestOutcome

/-!
# Requests Over Time

A host that asks a device for its configuration, its status or its line encoding expects to
hear what was last set.  That holds here for every history of requests and interrupts, with
interrupts also while a request waits for the host.  What counts as setting something is not
the same everywhere: a line encoding is forgotten when a configuration is selected and
survives a reset, with the configuration number it is the other way round.
-/

namespace LoccFirmware.Usb

open LoccFirmware.Automata

/-! ## Interrupts -/

/-- A reset of the bus. -/
def BusEvent.isReset : BusEvent → Bool
  | .reset .. => true
  | _ => false

namespace ControlState

variable {capacity : ℕ}

/-- What no interrupt changes, interrupts do not change. -/
theorem interrupts_keep {α : Type*} (f : ControlState → α)
    (h : ∀ s e, f (interrupt capacity s e) = f s) (s : ControlState) (es : List BusEvent) :
    f (s.interrupts capacity es) = f s := by
  induction es generalizing s with
  | nil => rfl
  | cons e es ih => exact (ih (s.interrupt capacity e)).trans (h s e)

/-- An invariant of every interrupt. -/
theorem interrupts_induction {I : ControlState → Prop}
    (h : ∀ s e, I s → I (interrupt capacity s e)) {s : ControlState} (hs : I s)
    (es : List BusEvent) : I (s.interrupts capacity es) := by
  induction es generalizing s with
  | nil => exact hs
  | cons e es ih => exact ih (h s e hs)

theorem interrupts_append (s : ControlState) (es es' : List BusEvent) :
    s.interrupts capacity (es ++ es') = (s.interrupts capacity es).interrupts capacity es' :=
  List.foldl_append

/-- The wait for a packet changes the state by the interrupts that came meanwhile. -/
theorem waitForOUT_state (s : ControlState) (rounds : List (List BusEvent)) :
    (s.waitForOUT capacity rounds).1 =
      s.interrupts capacity (s.waitForOUT capacity rounds).2.1 := by
  induction rounds generalizing s with
  | nil => rfl
  | cons round rounds ih =>
    rw [waitForOUT]
    split
    -- the loop gives up in this round
    · rfl
    -- it goes on with the state that the interrupts of this round have left
    · simp only
      rw [interrupts_append]
      exact ih _

theorem interrupt_lineEncoding (s : ControlState) (e : BusEvent) :
    (interrupt capacity s e).cdc.lineEncoding = s.cdc.lineEncoding := by
  cases e with
  | suspend => simp only [interrupt]; split <;> rfl
  | wakeUp => simp only [interrupt]; split <;> rfl
  | reset => rfl

theorem interrupts_lineEncoding (s : ControlState) (es : List BusEvent) :
    (s.interrupts capacity es).cdc.lineEncoding = s.cdc.lineEncoding :=
  interrupts_keep (fun s => s.cdc.lineEncoding) interrupt_lineEncoding s es

/-- Interrupts have nothing to do with features. -/
theorem interrupt_features (s : ControlState) (e : BusEvent) :
    ((interrupt capacity s e).currentlySelfPowered, (interrupt capacity s e).remoteWakeupEnabled) =
      (s.currentlySelfPowered, s.remoteWakeupEnabled) := by
  cases e with
  | suspend => simp only [interrupt]; split <;> rfl
  | wakeUp => simp only [interrupt]; split <;> rfl
  | reset => rfl

theorem interrupts_features (capacity : ℕ) (s : ControlState) (es : List BusEvent) :
    (s.interrupts capacity es).currentlySelfPowered = s.currentlySelfPowered ∧
      (s.interrupts capacity es).remoteWakeupEnabled = s.remoteWakeupEnabled :=
  Prod.mk.inj (interrupts_keep (fun s => (s.currentlySelfPowered, s.remoteWakeupEnabled))
    interrupt_features s es)

theorem interrupt_configurationNumber (s : ControlState) (e : BusEvent) :
    (interrupt capacity s e).configurationNumber =
      if e.isReset then 0 else s.configurationNumber := by
  cases e with
  | suspend => simp only [interrupt]; split <;> rfl
  | wakeUp => simp only [interrupt]; split <;> rfl
  | reset => rfl

/-- Only a reset changes the configuration number, to zero. -/
theorem interrupts_configurationNumber (capacity : ℕ) (s : ControlState) (es : List BusEvent) :
    (s.interrupts capacity es).configurationNumber =
      if es.any BusEvent.isReset then 0 else s.configurationNumber := by
  induction es generalizing s with
  | nil => rfl
  | cons e es ih =>
    have hstep := ih (s.interrupt capacity e)
    rw [interrupt_configurationNumber] at hstep
    refine hstep.trans ?_
    rw [List.any_cons]
    -- once it is zero, neither the other interrupts nor another reset make a difference
    cases e.isReset <;> cases es.any BusEvent.isReset <;> rfl

end ControlState

/-! ## What sets something -/

/-- A request of one kind is not one of another. -/
theorem Request.Is.not {r : Request} {type code type' code' : UInt8} (h : r.Is type code)
    (hne : (type, code) ≠ (type', code')) : ¬ r.Is type' code' := by
  intro h'
  exact hne (Prod.ext (h.1.symm.trans h'.1) (h.2.symm.trans h'.2))

/-- The bytes of the line encoding that a request sets: those of the packet, if the request
was carried out, and zeros, if a configuration was selected. -/
def encodingSet (r : Request) (env : Environment) (response : Response) : Option (List UInt8) :=
  if response = .done then
    if r.Is classToInterface cdcReqSetLineEncoding then some ((List.range 7).map env.out)
    else if r.Is standardToDevice reqSetConfiguration then some (List.replicate 7 0)
    else none
  else none

/-- The configuration number that a request sets; a reset meanwhile sets it to zero. -/
def configurationSet (r : Request) (response : Response) (interrupts : List BusEvent) :
    Option UInt8 :=
  if interrupts.any BusEvent.isReset then some 0
  else if response = .done then
    if r.Is standardToDevice reqSetConfiguration then some r.wValue.toUInt8 else none
  else none

/-- Whether a request allows the device to wake up the host. -/
def wakeupSet (r : Request) (response : Response) : Option Bool :=
  if response = .done then
    if r.Is standardToDevice reqSetFeature then some true
    else if r.Is standardToDevice reqClearFeature then some false
    else none
  else none

/-! ## Line encodings on the bus -/

section Packets

variable (b0 b1 b2 b3 : UInt8)

theorem dword_toNat : (dword b0 b1 b2 b3).toNat =
    b0.toNat + 2 ^ 8 * b1.toNat + 2 ^ 16 * b2.toNat + 2 ^ 24 * b3.toNat := by
  have h0 := b0.toNat_lt
  have h1 := b1.toNat_lt
  have h2 := b2.toNat_lt
  have h3 := b3.toNat_lt
  rw [dword, UInt32.toNat_ofNat']
  omega

/-- What is read comes out again. -/
theorem le32_dword : le32 (dword b0 b1 b2 b3) = [b0, b1, b2, b3] := by
  have h0 := b0.toNat_lt
  have h1 := b1.toNat_lt
  have h2 := b2.toNat_lt
  have h3 := b3.toNat_lt
  have hword := dword_toNat b0 b1 b2 b3
  -- shifts and casts become divisions and remainders, byte by byte
  simp only [le32, List.cons.injEq, and_true, ← UInt8.toNat_inj, UInt32.toNat_toUInt8,
    UInt32.toNat_shiftRight, Nat.shiftRight_eq_div_pow, UInt32.reduceToNat, Nat.reduceMod,
    Nat.reducePow, hword]
  omega

/-- Only zero has no byte other than zero. -/
theorem le32_eq_zero_iff {x : UInt32} : le32 x = List.replicate 4 0 ↔ x = 0 := by
  constructor
  · intro h
    have hlt := x.toNat_lt
    simp only [le32, List.replicate, List.cons.injEq, and_true, ← UInt8.toNat_inj,
      UInt32.toNat_toUInt8, UInt32.toNat_shiftRight, Nat.shiftRight_eq_div_pow,
      UInt32.reduceToNat, UInt8.reduceToNat, Nat.reduceMod, Nat.reducePow] at h
    rw [← UInt32.toNat_inj, UInt32.toNat_zero]
    omega
  · rintro rfl
    decide

theorem LineEncoding.ofPacket_bytes (b : ℕ → UInt8) :
    (LineEncoding.ofPacket b).bytes = (List.range 7).map b := by
  rw [bytes, ofPacket, le32_dword]
  rfl

theorem LineEncoding.cleared_bytes : LineEncoding.cleared.bytes = List.replicate 7 0 := by
  decide

end Packets

/-! ## One request -/

/-- The requests that set something. -/
def settingRequests : List (UInt8 × UInt8) :=
  [(classToInterface, cdcReqSetLineEncoding), (standardToDevice, reqSetConfiguration),
    (standardToDevice, reqSetFeature), (standardToDevice, reqClearFeature)]

/-- What can be set. -/
def ControlState.settings (s : ControlState) : LineEncoding × UInt8 × Bool × Bool :=
  (s.cdc.lineEncoding, s.configurationNumber, s.currentlySelfPowered, s.remoteWakeupEnabled)

/-- A request sets what it says. -/
structure SetsOnly (r : Request) (env : Environment) (s : ControlState) (handled : Handled) :
    Prop where
  lineEncoding : handled.state.cdc.lineEncoding.bytes =
    (encodingSet r env handled.response).getD s.cdc.lineEncoding.bytes
  configurationNumber : handled.state.configurationNumber =
    (configurationSet r handled.response handled.interrupts).getD s.configurationNumber
  selfPowered : handled.state.currentlySelfPowered = s.currentlySelfPowered
  wakeup : handled.state.remoteWakeupEnabled =
    (wakeupSet r handled.response).getD s.remoteWakeupEnabled

section Step

variable {capacity : ℕ} {signature : UInt8 → UInt8} {r : Request} {env : Environment}
  {s : ControlState} {handled : Handled}

/-- A request that sets nothing, after the status stage. -/
theorem setsOnly_of_not_mem (hr : (r.bmRequestType, r.bRequest) ∉ settingRequests)
    {s' : ControlState} (hs' : s'.settings = s.settings) (response : Response) :
    SetsOnly r env s (clearStatusStage capacity env s' response) := by
  have hnot (type code : UInt8) (hmem : (type, code) ∈ settingRequests) : ¬ r.Is type code := by
    rintro ⟨rfl, rfl⟩
    exact hr hmem
  -- what the handler has left is what the interrupts of the status stage find
  simp only [ControlState.settings, Prod.mk.injEq] at hs'
  obtain ⟨hencoding, hnumber, hpowered, hwakeup⟩ := hs'
  obtain ⟨hpowered', hwakeup'⟩ := s'.interrupts_features capacity env.statusStage
  refine ⟨?_, ?_, hpowered'.trans hpowered, ?_⟩
  · rw [encodingSet, if_neg (hnot _ _ (by decide)), if_neg (hnot _ _ (by decide)), ite_self,
      Option.getD_none, ← hencoding]
    exact congrArg LineEncoding.bytes (s'.interrupts_lineEncoding _)
  · rw [configurationSet, if_neg (hnot _ _ (by decide)), ite_self, ← hnumber]
    refine (s'.interrupts_configurationNumber capacity env.statusStage).trans ?_
    rw [clearStatusStage]
    split <;> rfl
  · rw [wakeupSet, if_neg (hnot _ _ (by decide)), if_neg (hnot _ _ (by decide)), ite_self,
      Option.getD_none, ← hwakeup]
    exact hwakeup'

theorem Request.Is.not_setting {type code : UInt8} (h : r.Is type code)
    (hmem : (type, code) ∉ settingRequests) :
    (r.bmRequestType, r.bRequest) ∉ settingRequests := by
  rwa [h.1, h.2]

theorem halt_settings (endpointIndex : ℕ) (set : Bool) :
    (s.halt endpointIndex set).settings = s.settings := by
  unfold ControlState.halt
  split_ifs <;> rfl

/-- A request that has set nothing when its wait for a packet is over. -/
theorem setsOnly_waitForOUT {response : Response} (hresponse : response ≠ .done) :
    SetsOnly r env s
      { state := (s.waitForOUT capacity env.outRounds).1
        response := response
        interrupts := (s.waitForOUT capacity env.outRounds).2.1 } := by
  obtain ⟨hpowered, hwakeup⟩ :=
    s.interrupts_features capacity (s.waitForOUT capacity env.outRounds).2.1
  rw [ControlState.waitForOUT_state]
  refine ⟨?_, ?_, hpowered, ?_⟩
  · rw [encodingSet, if_neg hresponse]
    exact congrArg LineEncoding.bytes (s.interrupts_lineEncoding _)
  · refine (s.interrupts_configurationNumber capacity _).trans ?_
    rw [configurationSet, if_neg hresponse]
    split <;> rfl
  · rw [wakeupSet, if_neg hresponse]
    exact hwakeup

/-- A line encoding is set when the packet has come. -/
theorem setsOnly_setLineEncoding (h : r.Is classToInterface cdcReqSetLineEncoding)
    {waited : List BusEvent} {s' : ControlState} (hs' : s' = s.interrupts capacity waited) :
    SetsOnly r env s
      { state := ControlState.interrupts capacity
          { s' with cdc := { s'.cdc with lineEncoding := .ofPacket env.out } } env.statusStage
        response := .done
        interrupts := waited ++ env.statusStage } := by
  obtain ⟨hpowered, hwakeup⟩ := s.interrupts_features capacity waited
  obtain ⟨hpowered', hwakeup'⟩ := ControlState.interrupts_features capacity
    { s' with cdc := { s'.cdc with lineEncoding := .ofPacket env.out } } env.statusStage
  subst hs'
  refine ⟨?_, ?_, hpowered'.trans hpowered, ?_⟩
  · rw [encodingSet, if_pos rfl, if_pos h, Option.getD_some, ← LineEncoding.ofPacket_bytes]
    exact congrArg LineEncoding.bytes (ControlState.interrupts_lineEncoding _ _)
  · refine (ControlState.interrupts_configurationNumber capacity _ env.statusStage).trans ?_
    -- a reset may have come before the packet, after it, or both
    have hnumber := s.interrupts_configurationNumber capacity waited
    rw [configurationSet, if_neg (h.not (by decide)), ite_self, List.any_append]
    dsimp only
    rw [hnumber]
    cases waited.any BusEvent.isReset <;> cases env.statusStage.any BusEvent.isReset <;> rfl
  · rw [wakeupSet, if_neg (h.not (by decide)), if_neg (h.not (by decide)), ite_self]
    exact hwakeup'.trans hwakeup

/-- The feature is set or cleared. -/
theorem setsOnly_remoteWakeup
    (h : r.Is standardToDevice reqClearFeature ∨ r.Is standardToDevice reqSetFeature) :
    SetsOnly r env s (clearStatusStage capacity env
      { s with remoteWakeupEnabled := decide (r.bRequest = reqSetFeature) } .done) := by
  have htype : r.bmRequestType = standardToDevice := h.elim And.left And.left
  -- by its code alone it is none of the other requests that set something
  have hnot (type code : UInt8) (hcode : code ∉ [reqClearFeature, reqSetFeature]) :
      ¬ r.Is type code := by
    rintro ⟨-, rfl⟩
    rcases h with h | h
    · exact hcode (by rw [h.2]; decide)
    · exact hcode (by rw [h.2]; decide)
  obtain ⟨hpowered, hwakeup⟩ := ControlState.interrupts_features capacity
    { s with remoteWakeupEnabled := decide (r.bRequest = reqSetFeature) } env.statusStage
  refine ⟨?_, ?_, hpowered, hwakeup.trans ?_⟩
  · rw [encodingSet, if_neg (hnot _ _ (by decide)), if_neg (hnot _ _ (by decide)), ite_self]
    exact congrArg LineEncoding.bytes (ControlState.interrupts_lineEncoding _ _)
  · rw [configurationSet, if_neg (hnot _ _ (by decide)), ite_self]
    refine (ControlState.interrupts_configurationNumber capacity _ env.statusStage).trans ?_
    rw [clearStatusStage]
    split <;> rfl
  · rw [wakeupSet, clearStatusStage, if_pos rfl]
    rcases h with h | h
    · rw [if_neg (h.not (by decide)), if_pos h, h.2]
      rfl
    · rw [if_pos h, h.2]
      rfl

/-- Selecting a configuration clears the line encoding. -/
theorem setsOnly_setConfiguration (h : r.Is standardToDevice reqSetConfiguration)
    {s' : ControlState} (hs' : s' = ControlState.interrupts capacity
      { s with configurationNumber := r.wValue.toUInt8 } env.statusStage) :
    SetsOnly r env s
      { state := configurationChanged capacity env
          { s' with cdc := { s'.cdc with deviceState := s'.attachedState } }
        response := .done
        interrupts := env.statusStage } := by
  obtain ⟨hpowered, hwakeup⟩ := ControlState.interrupts_features capacity
    { s with configurationNumber := r.wValue.toUInt8 } env.statusStage
  have hnumber := ControlState.interrupts_configurationNumber capacity
    { s with configurationNumber := r.wValue.toUInt8 } env.statusStage
  rw [← hs'] at hpowered hwakeup hnumber
  refine ⟨?_, hnumber.trans ?_, hpowered, ?_⟩
  -- `CDC_Device_ConfigureEndpoints` comes after the status stage
  · rw [encodingSet, if_pos rfl, if_neg (h.not (by decide)), if_pos h, Option.getD_some,
      ← LineEncoding.cleared_bytes]
    rfl
  · rw [configurationSet, if_pos rfl, if_pos h]
    split <;> rfl
  · rw [wakeupSet, if_neg (h.not (by decide)), if_neg (h.not (by decide)), ite_self]
    exact hwakeup

/-- **One request** sets what it says, whatever interrupts come meanwhile. -/
theorem Outcome.setsOnly (h : Outcome capacity signature r env s handled) :
    SetsOnly r env s handled := by
  cases h with
  | getLineEncoding _ h => exact setsOnly_of_not_mem (h.not_setting (by decide)) rfl _
  | lineEncodingAbandoned => exact setsOnly_waitForOUT Response.noConfusion
  | setLineEncoding _ h s' hs' =>
    exact setsOnly_setLineEncoding h (hs'.trans (s.waitForOUT_state _))
  -- the state of the control lines is none of the settings
  | setControlLineState _ h =>
    have hsets : SetsOnly r env s (clearStatusStage capacity env s .done) :=
      setsOnly_of_not_mem (h.not_setting (by decide)) rfl _
    exact ⟨hsets.lineEncoding, hsets.configurationNumber, hsets.selfPowered, hsets.wakeup⟩
  | sendBreak _ h => exact setsOnly_of_not_mem (h.not_setting (by decide)) rfl _
  | getDeviceStatus h => exact setsOnly_of_not_mem (h.not_setting (by decide)) rfl _
  | getEndpointStatus h => exact setsOnly_of_not_mem (h.not_setting (by decide)) rfl _
  | remoteWakeup h => exact setsOnly_remoteWakeup h
  | halt h =>
    refine setsOnly_of_not_mem ?_ (halt_settings _ _) _
    exact h.elim (fun h => h.not_setting (by decide)) fun h => h.not_setting (by decide)
  | otherFeature h =>
    refine setsOnly_of_not_mem ?_ rfl _
    exact h.elim (fun h => h.not_setting (by decide)) fun h => h.not_setting (by decide)
  -- neither is the address, nor what becomes of `USB_DeviceState`
  | setAddress h =>
    have hsets : SetsOnly r env s
        (clearStatusStage capacity env { s with address := r.wValue.toUInt8 &&& 0x7F } .done) := by
      refine setsOnly_of_not_mem (h.not_setting (by decide)) ?_ _
      rfl
    exact ⟨hsets.lineEncoding, hsets.configurationNumber, hsets.selfPowered, hsets.wakeup⟩
  | getDescriptor =>
    apply setsOnly_waitForOUT
    split <;> exact Response.noConfusion
  | getConfiguration h => exact setsOnly_of_not_mem (h.not_setting (by decide)) rfl _
  | setConfiguration h hvalue s' hs' => exact setsOnly_setConfiguration h hs'

/-- The same for every request. -/
theorem process_setsOnly (capacity : ℕ) (signature : UInt8 → UInt8) (r : Request)
    (env : Environment) (s : ControlState) :
    SetsOnly r env s (processControlRequest capacity signature r env s) := by
  rcases process_outcome capacity signature r env s with ⟨-, hout⟩ | ⟨-, heq⟩
  -- the `SETUP` packet has ended a stall of the control endpoint, which is not a setting
  · have hsets := hout.setsOnly
    exact ⟨hsets.lineEncoding, hsets.configurationNumber, hsets.selfPowered, hsets.wakeup⟩
  · rw [heq]
    exact ⟨rfl, rfl, rfl, rfl⟩

end Step

/-! ## Histories -/

section Histories

variable (capacity : ℕ) (signature : UInt8 → UInt8)

/-- What an event sets of the line encoding. -/
def encodingWrites : ControlEvent → ControlOutput → Option (List UInt8)
  | .request setup env, o => o.response.bind (encodingSet (.ofSetup setup) env)
  | .interrupt _, _ => none

/-- What it sets of the configuration number. -/
def configurationWrites : ControlEvent → ControlOutput → Option UInt8
  | .request setup _, o =>
    o.response.bind fun response => configurationSet (.ofSetup setup) response o.interrupts
  | .interrupt e, _ => if e.isReset then some 0 else none

/-- What it sets of the feature. -/
def wakeupWrites : ControlEvent → ControlOutput → Option Bool
  | .request setup _, o => o.response.bind (wakeupSet (.ofSetup setup))
  | .interrupt _, _ => none

theorem lineEncoding_isRegister :
    (control capacity signature).IsRegister (fun s => s.cdc.lineEncoding.bytes)
      encodingWrites where
  step s e := by
    cases e with
    | request setup env =>
      exact (process_setsOnly capacity signature (.ofSetup setup) env s).lineEncoding
    | interrupt e => exact congrArg LineEncoding.bytes (s.interrupt_lineEncoding e)

theorem configurationNumber_isRegister :
    (control capacity signature).IsRegister ControlState.configurationNumber
      configurationWrites where
  step s e := by
    cases e with
    | request setup env =>
      exact (process_setsOnly capacity signature (.ofSetup setup) env s).configurationNumber
    | interrupt e =>
      refine (s.interrupt_configurationNumber e).trans ?_
      rw [configurationWrites]
      cases e.isReset <;> rfl

theorem remoteWakeup_isRegister :
    (control capacity signature).IsRegister ControlState.remoteWakeupEnabled wakeupWrites where
  step s e := by
    cases e with
    | request setup env =>
      exact (process_setsOnly capacity signature (.ofSetup setup) env s).wakeup
    | interrupt e => exact (Prod.mk.inj (s.interrupt_features e)).2

/-- Nothing ever says that the device has a supply of its own. -/
theorem selfPowered_isRegister :
    (control capacity signature).IsRegister ControlState.currentlySelfPowered
      (fun _ _ => none) where
  step s e := by
    cases e with
    | request setup env =>
      exact (process_setsOnly capacity signature (.ofSetup setup) env s).selfPowered
    | interrupt e => exact (Prod.mk.inj (s.interrupt_features e)).1

end Histories

/-! ## Asking for what was set -/

section Replies

variable {capacity : ℕ} {signature : UInt8 → UInt8} {r : Request} {env : Environment}
  {s : ControlState}

/-- The CDC driver leaves the standard requests alone. -/
theorem process_of_standard {type code : UInt8} (h : r.Is type code)
    (hcode : code ∉ [cdcReqSetLineEncoding, cdcReqGetLineEncoding, cdcReqSetControlLineState,
      cdcReqSendBreak]) {handled : Handled}
    (hstandard : standardRequest capacity signature r env s.setupReceived = some handled) :
    processControlRequest capacity signature r env s = handled := by
  simp only [List.mem_cons, List.not_mem_nil, or_false, not_or] at hcode
  obtain ⟨hset, hget, hline, hbreak⟩ := hcode
  have hcdc : cdcProcessControlRequest capacity r env s.setupReceived = none := by
    rw [cdcProcessControlRequest, h.2, if_neg hget, if_neg hset, if_neg hline, if_neg hbreak,
      ite_self]
  rw [processControlRequest, hcdc, hstandard]

theorem reply_getLineEncoding (hindex : r.wIndex = 0)
    (h : r.Is classFromInterface cdcReqGetLineEncoding) :
    (processControlRequest capacity signature r env s).response =
      .data s.cdc.lineEncoding.bytes := by
  have hcdc : cdcProcessControlRequest capacity r env s.setupReceived =
      some (clearStatusStage capacity env s.setupReceived (.data s.cdc.lineEncoding.bytes)) := by
    rw [cdcProcessControlRequest, if_neg (not_not.mpr hindex), if_pos h.2, if_pos h.1]
    rfl
  rw [processControlRequest, hcdc]
  rfl

theorem reply_getConfiguration (h : r.Is standardFromDevice reqGetConfiguration) :
    (processControlRequest capacity signature r env s).response =
      .data [s.configurationNumber] := by
  have hstandard : standardRequest capacity signature r env s.setupReceived =
      some (getConfiguration capacity env s.setupReceived) := by
    rw [standardRequest, h.2, if_neg (by decide), if_neg (by decide), if_neg (by decide),
      if_neg (by decide), if_pos rfl, if_pos h.1]
  rw [process_of_standard h (by decide) hstandard]
  rfl

theorem reply_getDeviceStatus (h : r.Is standardFromDevice reqGetStatus)
    (hpowered : s.currentlySelfPowered = false) :
    (processControlRequest capacity signature r env s).response =
      .data [if s.remoteWakeupEnabled then 2 else 0, 0] := by
  have hstandard : standardRequest capacity signature r env s.setupReceived =
      some (clearStatusStage capacity env s.setupReceived
        (.data [if s.remoteWakeupEnabled then 2 else 0, 0])) := by
    rw [standardRequest, if_pos h.2, if_pos (Or.inl h.1), getStatus, if_pos h.1]
    simp only [ControlState.setupReceived, hpowered]
    cases s.remoteWakeupEnabled <;> rfl
  rw [process_of_standard h (by decide) hstandard]
  rfl

end Replies

/-- **What was set is what is read**: after every history of requests and interrupts, with
    interrupts also while requests wait for the host,
    - the host is told the line encoding that was set last, byte by byte, if no configuration
      was selected since, and zeros otherwise;
    - it is told the configuration that was selected last, if there was no reset since;
    - it is told whether remote wake-up was set or cleared last;
    - a request is refused if and only if it is not supported, and then nothing changes;
    - the serial link is open if and only if the device is configured and the baud rate that
      was set last is not zero. -/
theorem control_registers (capacity : ℕ) (signature : UInt8 → UInt8) (start : ℕ → ℕ)
    (slides : ℕ → Slides) (history : List ControlEvent) (r : Request) (env : Environment) :
    let M := control capacity signature
    let init := ControlState.initial capacity start slides
    let s := M.run init history
    let reply := (processControlRequest capacity signature r env s).response
    (r.Is classFromInterface cdcReqGetLineEncoding → r.wIndex = 0 →
      reply = .data (M.lastWritten encodingWrites init history (List.replicate 7 0))) ∧
    (r.Is standardFromDevice reqGetConfiguration →
      reply = .data [M.lastWritten configurationWrites init history 0]) ∧
    (r.Is standardFromDevice reqGetStatus →
      reply = .data [if M.lastWritten wakeupWrites init history false then 2 else 0, 0]) ∧
    ((reply = .stalled ↔ ¬ Supported signature r) ∧
      (reply = .stalled → (processControlRequest capacity signature r env s).state =
        { s with stalled := Function.update s.stalled 0 true })) ∧
    (s.cdc.isOpen = true ↔ s.cdc.deviceState = .configured ∧
      (M.lastWritten encodingWrites init history (List.replicate 7 0)).take 4 ≠
        List.replicate 4 0) := by
  intro M init s reply
  -- each of the variables is a register, so it holds what was written last
  have hencoding : s.cdc.lineEncoding.bytes =
      M.lastWritten encodingWrites init history (List.replicate 7 0) := by
    rw [← LineEncoding.cleared_bytes]
    exact (lineEncoding_isRegister capacity signature).run init history
  have hnumber : s.configurationNumber = M.lastWritten configurationWrites init history 0 :=
    (configurationNumber_isRegister capacity signature).run init history
  have hwakeup : s.remoteWakeupEnabled = M.lastWritten wakeupWrites init history false :=
    (remoteWakeup_isRegister capacity signature).run init history
  have hpowered : s.currentlySelfPowered = false :=
    Mealy.run_induction (I := fun s => s.currentlySelfPowered = false)
      (fun s e hs => ((selfPowered_isRegister capacity signature).step s e).trans hs) rfl history
  refine ⟨fun h hindex => ?_, fun h => ?_, fun h => ?_, ?_, ?_⟩
  · rw [← hencoding]
    exact reply_getLineEncoding hindex h
  · rw [← hnumber]
    exact reply_getConfiguration h
  · rw [← hwakeup]
    exact reply_getDeviceStatus h hpowered
  -- a request that is handled is supported and gets another answer
  · rcases process_outcome capacity signature r env s with ⟨hsupported, hout⟩ | ⟨hnot, heq⟩
    · have hne : reply ≠ .stalled := hout.response_ne_stalled
      exact ⟨⟨fun h => absurd h hne, fun h => absurd hsupported h⟩, fun h => absurd h hne⟩
    · have hstalled : reply = .stalled := congrArg Handled.response heq
      exact ⟨⟨fun _ => hnot, fun _ => hstalled⟩, fun _ => congrArg Handled.state heq⟩
  -- the first four bytes are the baud rate
  · have htake : s.cdc.lineEncoding.bytes.take 4 = le32 s.cdc.lineEncoding.baudRateBPS := rfl
    rw [← hencoding, htake, ne_eq, le32_eq_zero_iff]
    simp [CdcInterface.isOpen]

end LoccFirmware.Usb
