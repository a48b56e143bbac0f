import LoccFirmware.Usb.ControlRequest

/-!
# What Can Come of a Request

The handlers of `ControlRequest` test the type and the code of a request over and over, in
several functions.  Here this is done once and for all: `Supported` lists the requests that
the device supports, `Outcome` lists what each of them leads to, and `process_outcome` says
that there is nothing else.  Whatever is proved about requests is read off there.
-/

namespace LoccFirmware.Usb

/-! ## Supported requests -/

/-- A request with the given type and code. -/
def Request.Is (r : Request) (bmRequestType bRequest : UInt8) : Prop :=
  r.bmRequestType = bmRequestType ∧ r.bRequest = bRequest

instance (r : Request) (bmRequestType bRequest : UInt8) :
    Decidable (r.Is bmRequestType bRequest) :=
  inferInstanceAs (Decidable (_ ∧ _))

/-- The requests that the device supports: four of the CDC class, and the standard requests
for the status, the features, the address, the descriptors and the configuration. -/
inductive Supported (signature : UInt8 → UInt8) (r : Request) : Prop where
  | getLineEncoding (hindex : r.wIndex = 0) (h : r.Is classFromInterface cdcReqGetLineEncoding)
  | setLineEncoding (hindex : r.wIndex = 0) (h : r.Is classToInterface cdcReqSetLineEncoding)
  | setControlLineState (hindex : r.wIndex = 0)
      (h : r.Is classToInterface cdcReqSetControlLineState)
  | sendBreak (hindex : r.wIndex = 0) (h : r.Is classToInterface cdcReqSendBreak)
  | getDeviceStatus (h : r.Is standardFromDevice reqGetStatus)
  | getEndpointStatus (h : r.Is standardFromEndpoint reqGetStatus)
  | remoteWakeup (h : r.Is standardToDevice reqClearFeature ∨ r.Is standardToDevice reqSetFeature)
      (hvalue : r.wValue.toUInt8 = featureSelDeviceRemoteWakeup)
  | endpointFeature
      (h : r.Is standardToEndpoint reqClearFeature ∨ r.Is standardToEndpoint reqSetFeature)
      (hvalue : r.wValue.toUInt8 = featureSelEndpointHalt →
        (r.wIndex.toUInt8 &&& 0x0F).toNat ≠ 0)
  | setAddress (h : r.Is standardToDevice reqSetAddress)
  | getDescriptor
      (h : r.Is standardFromDevice reqGetDescriptor ∨ r.Is standardFromInterface reqGetDescriptor)
      (d : List UInt8) (hd : Usb.getDescriptor signature r.wValue = some d)
  | getConfiguration (h : r.Is standardFromDevice reqGetConfiguration)
  | setConfiguration (h : r.Is standardToDevice reqSetConfiguration)
      (hvalue : r.wValue.toUInt8 ≤ 1)

section Outcome

variable (capacity : ℕ) (signature : UInt8 → UInt8) (r : Request) (env : Environment)
  (s : ControlState)

/-- The ways in which a request can be handled. -/
inductive Outcome : Handled → Prop where
  | getLineEncoding (hindex : r.wIndex = 0) (h : r.Is classFromInterface cdcReqGetLineEncoding) :
      Outcome (clearStatusStage capacity env s (.data s.cdc.lineEncoding.bytes))
  | lineEncodingAbandoned (hindex : r.wIndex = 0)
      (h : r.Is classToInterface cdcReqSetLineEncoding) :
      Outcome
        { state := (s.waitForOUT capacity env.outRounds).1
          response := .abandoned
          interrupts := (s.waitForOUT capacity env.outRounds).2.1 }
  | setLineEncoding (hindex : r.wIndex = 0) (h : r.Is classToInterface cdcReqSetLineEncoding)
      (s' : ControlState) (hs' : s' = (s.waitForOUT capacity env.outRounds).1) :
      Outcome
        { state := ControlState.interrupts capacity
            { s' with cdc := { s'.cdc with lineEncoding := .ofPacket env.out } } env.statusStage
          response := .done
          interrupts := (s.waitForOUT capacity env.outRounds).2.1 ++ env.statusStage }
  | setControlLineState (hindex : r.wIndex = 0)
      (h : r.Is classToInterface cdcReqSetControlLineState) :
      Outcome
        { clearStatusStage capacity env s .done with
          state := { s.interrupts capacity env.statusStage with hostToDevice := r.wValue } }
  | sendBreak (hindex : r.wIndex = 0) (h : r.Is classToInterface cdcReqSendBreak) :
      Outcome (clearStatusStage capacity env s .done)
  | getDeviceStatus (h : r.Is standardFromDevice reqGetStatus) :
      Outcome (clearStatusStage capacity env s (.data
        [(if s.currentlySelfPowered then 1 else 0) ||| if s.remoteWakeupEnabled then 2 else 0, 0]))
  | getEndpointStatus (h : r.Is standardFromEndpoint reqGetStatus) :
      Outcome (clearStatusStage capacity env s (.data
        [if s.stalled (r.wIndex.toUInt8 &&& 0x0F).toNat then 1 else 0, 0]))
  | remoteWakeup
      (h : r.Is standardToDevice reqClearFeature ∨ r.Is standardToDevice reqSetFeature)
      (hvalue : r.wValue.toUInt8 = featureSelDeviceRemoteWakeup) :
      Outcome (clearStatusStage capacity env
        { s with remoteWakeupEnabled := decide (r.bRequest = reqSetFeature) } .done)
  | halt (h : r.Is standardToEndpoint reqClearFeature ∨ r.Is standardToEndpoint reqSetFeature)
      (hvalue : r.wValue.toUInt8 = featureSelEndpointHalt)
      (hindex : (r.wIndex.toUInt8 &&& 0x0F).toNat ≠ 0) :
      Outcome (clearStatusStage capacity env (s.halt (r.wIndex.toUInt8 &&& 0x0F).toNat
        (decide (r.bRequest = reqSetFeature))) .done)
  | otherFeature
      (h : r.Is standardToEndpoint reqClearFeature ∨ r.Is standardToEndpoint reqSetFeature)
      (hvalue : r.wValue.toUInt8 ≠ featureSelEndpointHalt) :
      Outcome (clearStatusStage capacity env s .done)
  | setAddress (h : r.Is standardToDevice reqSetAddress) :
      Outcome (Usb.setAddress capacity r env s)
  | getDescriptor
      (h : r.Is standardFromDevice reqGetDescriptor ∨ r.Is standardFromInterface reqGetDescriptor)
      (d : List UInt8) (hd : Usb.getDescriptor signature r.wValue = some d) :
      Outcome
        { state := (s.waitForOUT capacity env.outRounds).1
          response := if (s.waitForOUT capacity env.outRounds).2.2 then
            .data (d.take r.wLength.toNat) else .abandoned
          interrupts := (s.waitForOUT capacity env.outRounds).2.1 }
  | getConfiguration (h : r.Is standardFromDevice reqGetConfiguration) :
      Outcome (clearStatusStage capacity env s (.data [s.configurationNumber]))
  | setConfiguration (h : r.Is standardToDevice reqSetConfiguration)
      (hvalue : r.wValue.toUInt8 ≤ 1) (s' : ControlState)
      (hs' : s' = ControlState.interrupts capacity
        { s with configurationNumber := r.wValue.toUInt8 } env.statusStage) :
      Outcome
        { state := configurationChanged capacity env
            { s' with cdc := { s'.cdc with deviceState := s'.attachedState } }
          response := .done
          interrupts := env.statusStage }

variable {capacity signature r env s}

/-- Requests that are handled are supported. -/
theorem Outcome.supported {handled : Handled} (h : Outcome capacity signature r env s handled) :
    Supported signature r := by
  cases h with
  | getLineEncoding hindex h => exact .getLineEncoding hindex h
  | lineEncodingAbandoned hindex h => exact .setLineEncoding hindex h
  | setLineEncoding hindex h => exact .setLineEncoding hindex h
  | setControlLineState hindex h => exact .setControlLineState hindex h
  | sendBreak hindex h => exact .sendBreak hindex h
  | getDeviceStatus h => exact .getDeviceStatus h
  | getEndpointStatus h => exact .getEndpointStatus h
  | remoteWakeup h hvalue => exact .remoteWakeup h hvalue
  | halt h hvalue hindex => exact .endpointFeature h fun _ => hindex
  | otherFeature h hvalue => exact .endpointFeature h fun heq => absurd heq hvalue
  | setAddress h => exact .setAddress h
  | getDescriptor h d hd => exact .getDescriptor h d hd
  | getConfiguration h => exact .getConfiguration h
  | setConfiguration h hvalue => exact .setConfiguration h hvalue

/-- They are not refused. -/
theorem Outcome.response_ne_stalled {handled : Handled}
    (h : Outcome capacity signature r env s handled) : handled.response ≠ .stalled := by
  cases h with
  | getDescriptor h d hd =>
    dsimp only
    split <;> exact Response.noConfusion
  | _ => exact Response.noConfusion

theorem cdcProcessControlRequest_outcome {handled : Handled}
    (h : cdcProcessControlRequest capacity r env s = some handled) :
    Outcome capacity signature r env s handled := by
  unfold cdcProcessControlRequest at h
  -- the cases that are left are those in which a handler has cleared the `SETUP` packet
  split_ifs at h with hindex hget hgetType hset hsetType hline hlineType hbreak hbreakType
  · obtain rfl := Option.some.inj h
    exact .getLineEncoding (not_not.mp hindex) ⟨hgetType, hget⟩
  · simp only at h
    -- the wait for the packet may have been given up
    split_ifs at h with hwaited
    · obtain rfl := Option.some.inj h
      exact .lineEncodingAbandoned (not_not.mp hindex) ⟨hsetType, hset⟩
    · obtain rfl := Option.some.inj h
      exact .setLineEncoding (not_not.mp hindex) ⟨hsetType, hset⟩ _ rfl
  · obtain rfl := Option.some.inj h
    exact .setControlLineState (not_not.mp hindex) ⟨hlineType, hline⟩
  · obtain rfl := Option.some.inj h
    exact .sendBreak (not_not.mp hindex) ⟨hbreakType, hbreak⟩

theorem getStatus_outcome (hcode : r.bRequest = reqGetStatus) {handled : Handled}
    (h : getStatus capacity r env s = some handled) :
    Outcome capacity signature r env s handled := by
  unfold getStatus at h
  split at h
  · rename_i hdevice
    -- the two features are the two lowest bits
    have hbytes : le16 (if s.remoteWakeupEnabled then
          (if s.currentlySelfPowered then featureSelfpoweredEnabled else 0) |||
            featureRemoteWakeupEnabled
        else if s.currentlySelfPowered then featureSelfpoweredEnabled else 0).toUInt16 =
        [(if s.currentlySelfPowered then 1 else 0) ||| if s.remoteWakeupEnabled then 2 else 0,
          0] := by
      cases s.currentlySelfPowered <;> cases s.remoteWakeupEnabled <;> decide
    obtain rfl := Option.some.inj h
    rw [hbytes]
    exact .getDeviceStatus ⟨hdevice, hcode⟩
  · split at h
    · rename_i hendpoint
      have hbytes : le16 (if s.stalled (r.wIndex.toUInt8 &&& 0x0F).toNat then (1 : UInt8)
          else 0).toUInt16 = [if s.stalled (r.wIndex.toUInt8 &&& 0x0F).toNat then 1 else 0, 0] := by
        cases s.stalled (r.wIndex.toUInt8 &&& 0x0F).toNat <;> decide
      obtain rfl := Option.some.inj h
      rw [hbytes]
      exact .getEndpointStatus ⟨hendpoint, hcode⟩
    · cases h

/-- The recipient in the two types of feature requests. -/
theorem recipient_standardToDevice :
    standardToDevice &&& controlReqtypeRecipient = reqrecDevice := by
  decide

theorem recipient_standardToEndpoint :
    standardToEndpoint &&& controlReqtypeRecipient ≠ reqrecDevice ∧
      standardToEndpoint &&& controlReqtypeRecipient = reqrecEndpoint := by
  decide

theorem clearSetFeature_outcome (hcode : r.bRequest = reqClearFeature ∨ r.bRequest = reqSetFeature)
    (htype : r.bmRequestType = standardToDevice ∨ r.bmRequestType = standardToEndpoint)
    {handled : Handled} (h : clearSetFeature capacity r env s = some handled) :
    Outcome capacity signature r env s handled := by
  unfold clearSetFeature at h
  -- the switch is over the recipient, which the type determines
  rcases htype with htype | htype
  · rw [htype, if_pos recipient_standardToDevice] at h
    split_ifs at h with hvalue
    obtain rfl := Option.some.inj h
    exact .remoteWakeup (hcode.imp (⟨htype, ·⟩) (⟨htype, ·⟩)) hvalue
  · rw [htype, if_neg recipient_standardToEndpoint.1,
      if_pos recipient_standardToEndpoint.2] at h
    simp only at h
    split_ifs at h with hvalue hindex
    · obtain rfl := Option.some.inj h
      exact .halt (hcode.imp (⟨htype, ·⟩) (⟨htype, ·⟩)) hvalue hindex
    · obtain rfl := Option.some.inj h
      exact .otherFeature (hcode.imp (⟨htype, ·⟩) (⟨htype, ·⟩)) hvalue

theorem standardRequest_outcome {handled : Handled}
    (h : standardRequest capacity signature r env s = some handled) :
    Outcome capacity signature r env s handled := by
  unfold standardRequest at h
  -- one case for each request with the right type
  split_ifs at h with hstatus hstatusType hfeature hfeatureType haddress haddressType
    hdescriptor hdescriptorType hget hgetType hset hsetType
  · exact getStatus_outcome hstatus h
  · exact clearSetFeature_outcome hfeature hfeatureType h
  · obtain rfl := Option.some.inj h
    exact .setAddress ⟨haddressType, haddress⟩
  · obtain ⟨d, hd, rfl⟩ := Option.map_eq_some_iff.mp h
    exact .getDescriptor (hdescriptorType.imp (⟨·, hdescriptor⟩) (⟨·, hdescriptor⟩)) d hd
  · obtain rfl := Option.some.inj h
    exact .getConfiguration ⟨hgetType, hget⟩
  · unfold setConfiguration at h
    split at h
    · cases h
    · rename_i hvalue
      obtain rfl := Option.some.inj h
      exact .setConfiguration ⟨hsetType, hset⟩ (UInt8.not_lt.mp hvalue) _ rfl

/-- The features that are supported are handled. -/
theorem clearSetFeature_ne_none
    (h : r.bmRequestType = standardToDevice ∧ r.wValue.toUInt8 = featureSelDeviceRemoteWakeup ∨
      r.bmRequestType = standardToEndpoint ∧ (r.wValue.toUInt8 = featureSelEndpointHalt →
        (r.wIndex.toUInt8 &&& 0x0F).toNat ≠ 0)) :
    clearSetFeature capacity r env s ≠ none := by
  intro hnone
  unfold clearSetFeature at hnone
  rcases h with ⟨htype, hvalue⟩ | ⟨htype, hvalue⟩
  · rw [htype, if_pos recipient_standardToDevice, if_pos hvalue] at hnone
    cases hnone
  · rw [htype, if_neg recipient_standardToEndpoint.1,
      if_pos recipient_standardToEndpoint.2] at hnone
    simp only at hnone
    split_ifs at hnone with hhalt hindex
    exact hvalue hhalt hindex

/-- Both codes for features lead to the same handler. -/
theorem standardRequest_feature (hcode : r.bRequest = reqClearFeature ∨ r.bRequest = reqSetFeature)
    (htype : r.bmRequestType = standardToDevice ∨ r.bmRequestType = standardToEndpoint) :
    standardRequest capacity signature r env s = clearSetFeature capacity r env s := by
  have hstatus : r.bRequest ≠ reqGetStatus := by
    rcases hcode with hcode | hcode <;> rw [hcode] <;> decide
  rw [standardRequest, if_neg hstatus, if_pos hcode, if_pos htype]

/-- A supported request is handled, by the CDC driver or by the standard handlers. -/
theorem Supported.handled (h : Supported signature r) :
    cdcProcessControlRequest capacity r env s ≠ none ∨
      standardRequest capacity signature r env s ≠ none := by
  -- the tests before the right one fail because the codes differ
  cases h with
  | getLineEncoding hindex h =>
    left
    rw [cdcProcessControlRequest, if_neg (not_not.mpr hindex), if_pos h.2, if_pos h.1]
    exact Option.some_ne_none _
  | setLineEncoding hindex h =>
    left
    rw [cdcProcessControlRequest, if_neg (not_not.mpr hindex), h.2, if_neg (by decide),
      if_pos rfl, if_pos h.1]
    simp only
    split <;> exact Option.some_ne_none _
  | setControlLineState hindex h =>
    left
    rw [cdcProcessControlRequest, if_neg (not_not.mpr hindex), h.2, if_neg (by decide),
      if_neg (by decide), if_pos rfl, if_pos h.1]
    exact Option.some_ne_none _
  | sendBreak hindex h =>
    left
    rw [cdcProcessControlRequest, if_neg (not_not.mpr hindex), h.2, if_neg (by decide),
      if_neg (by decide), if_neg (by decide), if_pos rfl, if_pos h.1]
    exact Option.some_ne_none _
  | getDeviceStatus h =>
    right
    rw [standardRequest, if_pos h.2, if_pos (Or.inl h.1), getStatus, if_pos h.1]
    exact Option.some_ne_none _
  | getEndpointStatus h =>
    right
    rw [standardRequest, if_pos h.2, if_pos (Or.inr h.1), getStatus, h.1, if_neg (by decide),
      if_pos rfl]
    exact Option.some_ne_none _
  | remoteWakeup h hvalue =>
    right
    have htype : r.bmRequestType = standardToDevice := h.elim And.left And.left
    rw [standardRequest_feature (h.imp And.right And.right) (Or.inl htype)]
    exact clearSetFeature_ne_none (Or.inl ⟨htype, hvalue⟩)
  | endpointFeature h hvalue =>
    right
    have htype : r.bmRequestType = standardToEndpoint := h.elim And.left And.left
    rw [standardRequest_feature (h.imp And.right And.right) (Or.inr htype)]
    exact clearSetFeature_ne_none (Or.inr ⟨htype, hvalue⟩)
  | setAddress h =>
    right
    rw [standardRequest, h.2, if_neg (by decide), if_neg (by decide), if_pos rfl, if_pos h.1]
    exact Option.some_ne_none _
  | getDescriptor h d hd =>
    right
    have hcode : r.bRequest = reqGetDescriptor := h.elim And.right And.right
    rw [standardRequest, hcode, if_neg (by decide), if_neg (by decide), if_neg (by decide),
      if_pos rfl, if_pos (h.imp And.left And.left), processGetDescriptor, hd]
    exact Option.some_ne_none _
  | getConfiguration h =>
    right
    rw [standardRequest, h.2, if_neg (by decide), if_neg (by decide), if_neg (by decide),
      if_neg (by decide), if_pos rfl, if_pos h.1]
    exact Option.some_ne_none _
  | setConfiguration h hvalue =>
    right
    rw [standardRequest, h.2, if_neg (by decide), if_neg (by decide), if_neg (by decide),
      if_neg (by decide), if_neg (by decide), if_pos rfl, if_pos h.1, Usb.setConfiguration,
      if_neg (UInt8.not_lt.mpr hvalue)]
    exact Option.some_ne_none _

/-- **What can come of a request**: it is supported and handled in one of the ways, or it is
    not, and then it is refused and nothing has changed. -/
theorem process_outcome (capacity : ℕ) (signature : UInt8 → UInt8) (r : Request)
    (env : Environment) (s : ControlState) :
    (Supported signature r ∧ Outcome capacity signature r env s.setupReceived
      (processControlRequest capacity signature r env s)) ∨
    (¬ Supported signature r ∧ processControlRequest capacity signature r env s =
      { state := { s with stalled := Function.update s.stalled 0 true }
        response := .stalled
        interrupts := [] }) := by
  cases hcdc : cdcProcessControlRequest capacity r env s.setupReceived with
  | some handled =>
    have hout : Outcome capacity signature r env s.setupReceived handled :=
      cdcProcessControlRequest_outcome hcdc
    rw [processControlRequest, hcdc]
    exact Or.inl ⟨hout.supported, hout⟩
  | none =>
    cases hstandard : standardRequest capacity signature r env s.setupReceived with
    | some handled =>
      have hout := standardRequest_outcome hstandard
      rw [processControlRequest, hcdc, hstandard]
      exact Or.inl ⟨hout.supported, hout⟩
    -- nobody has cleared the packet, so the request is not a supported one
    | none =>
      refine Or.inr ⟨fun h => h.handled.elim (absurd hcdc) (absurd hstandard), ?_⟩
      rw [processControlRequest, hcdc, hstandard]

end Outcome

end LoccFirmware.Usb
