import LoccFirmware.Usb.Cdc
import LoccFirmware.Usb.Descriptors
import LoccFirmware.Usb.EndpointLayout

/-!
# Control Requests

The host controls the device by requests, which arrive as `SETUP` packets at the control
endpoint.  `USB_Device_ProcessControlRequest` offers each to the CDC driver first, then to
the handlers of the standard requests, and stalls the endpoint if nobody has cleared the
`SETUP` packet by then.

While a handler waits for the host, the general interrupt of the controller may find the
bus suspended, woken up or reset, and change the state of the device under the handler.
What happened during the waits of a request is therefore an argument of the functions
below.  Three things are left out.  The interrupt may also come between any two other
steps of a handler, which is not followed here.  The host is taken to send no `SETUP`
packet before the one before has been dealt with.  And the handlers are taken to return:
the host sends the packets that they wait for, or the bus is suspended.
-/

namespace LoccFirmware.Usb

open LoccFirmware.Automata

/-! ## Requests -/

/-- `USB_Request_Header_t`. -/
@[ext] structure Request where
  bmRequestType : UInt8
  bRequest : UInt8
  wValue : UInt16
  wIndex : UInt16
  wLength : UInt16
  deriving DecidableEq

/-- Two bytes as a 16-bit number, the low byte first. -/
def word (low high : UInt8) : UInt16 :=
  low.toUInt16 ||| high.toUInt16 <<< 8

/-- The header, as the loop of `USB_Device_ProcessControlRequest` reads it. -/
def Request.ofSetup (setup : ℕ → UInt8) : Request where
  bmRequestType := setup 0
  bRequest := setup 1
  wValue := word (setup 2) (setup 3)
  wIndex := word (setup 4) (setup 5)
  wLength := word (setup 6) (setup 7)

def reqdirHostToDevice : UInt8 := 0x00
def reqdirDeviceToHost : UInt8 := 0x80
def reqtypeStandard : UInt8 := 0x00
def reqtypeClass : UInt8 := 0x20
def reqrecDevice : UInt8 := 0x00
def reqrecInterface : UInt8 := 0x01
def reqrecEndpoint : UInt8 := 0x02
def controlReqtypeRecipient : UInt8 := 0x1F

/-- The types of requests: a direction, a type and a recipient. -/
def standardToDevice : UInt8 := reqdirHostToDevice ||| reqtypeStandard ||| reqrecDevice
def standardToEndpoint : UInt8 := reqdirHostToDevice ||| reqtypeStandard ||| reqrecEndpoint
def standardFromDevice : UInt8 := reqdirDeviceToHost ||| reqtypeStandard ||| reqrecDevice
def standardFromInterface : UInt8 := reqdirDeviceToHost ||| reqtypeStandard ||| reqrecInterface
def standardFromEndpoint : UInt8 := reqdirDeviceToHost ||| reqtypeStandard ||| reqrecEndpoint
def classToInterface : UInt8 := reqdirHostToDevice ||| reqtypeClass ||| reqrecInterface
def classFromInterface : UInt8 := reqdirDeviceToHost ||| reqtypeClass ||| reqrecInterface

def reqGetStatus : UInt8 := 0
def reqClearFeature : UInt8 := 1
def reqSetFeature : UInt8 := 3
def reqSetAddress : UInt8 := 5
def reqGetDescriptor : UInt8 := 6
def reqGetConfiguration : UInt8 := 8
def reqSetConfiguration : UInt8 := 9
def cdcReqSetLineEncoding : UInt8 := 0x20
def cdcReqGetLineEncoding : UInt8 := 0x21
def cdcReqSetControlLineState : UInt8 := 0x22
def cdcReqSendBreak : UInt8 := 0x23

def featureSelEndpointHalt : UInt8 := 0x00
def featureSelDeviceRemoteWakeup : UInt8 := 0x01
def featureSelfpoweredEnabled : UInt8 := 0x01
def featureRemoteWakeupEnabled : UInt8 := 0x02

/-- What the host gets: the request is refused, or abandoned halfway, or answered with or
without data. -/
inductive Response where
  | stalled
  | abandoned
  | done
  | data (bytes : List UInt8)
  deriving DecidableEq

/-! ## Line encodings on the bus -/

/-- `Endpoint_Write_32_LE`. -/
def le32 (x : UInt32) : List UInt8 :=
  [x.toUInt8, (x >>> 8).toUInt8, (x >>> 16).toUInt8, (x >>> 24).toUInt8]

/-- `Endpoint_Read_32_LE`. -/
def dword (b0 b1 b2 b3 : UInt8) : UInt32 :=
  UInt32.ofNat (b0.toNat + 2 ^ 8 * b1.toNat + 2 ^ 16 * b2.toNat + 2 ^ 24 * b3.toNat)

/-- The bytes of a line encoding. -/
def LineEncoding.bytes (l : LineEncoding) : List UInt8 :=
  le32 l.baudRateBPS ++ [l.charFormat, l.parityType, l.dataBits]

/-- The line encoding in a packet. -/
def LineEncoding.ofPacket (b : ℕ → UInt8) : LineEncoding where
  baudRateBPS := dword (b 0) (b 1) (b 2) (b 3)
  charFormat := b 4
  parityType := b 5
  dataBits := b 6

/-! ## State -/

/-- The variables and registers that control requests and the general interrupt work on:
those of the CDC interface, with `USB_DeviceState`; `USB_Device_ConfigurationNumber`; the two
parts of `UDADDR`; the two features that `GetStatus` reports; the enable bits of the
interrupts for suspension and wake-up; the endpoints, with their stall flags. -/
structure ControlState where
  cdc : CdcInterface
  hostToDevice : UInt16
  configurationNumber : UInt8
  address : UInt8
  addressEnabled : Bool
  currentlySelfPowered : Bool
  remoteWakeupEnabled : Bool
  suspendEnabled : Bool
  wakeUpEnabled : Bool
  controller : Controller
  stalled : ℕ → Bool

/-- What the general interrupt finds: the bus is suspended, it has been woken up, or it has
been reset.  A reset leaves the controller in some state. -/
inductive BusEvent where
  | suspend
  | wakeUp
  | reset (addressEnabled : Bool) (kept epen stalled : ℕ → Bool) (start : ℕ → ℕ)
      (slides : ℕ → Slides)

/-- What a request finds while it waits: the interrupts before each look at the OUT endpoint
until a packet is there, that packet, the interrupts during the status stage, and what the
controller does with the memory of the endpoints. -/
structure Environment where
  outRounds : List (List BusEvent)
  out : ℕ → UInt8
  statusStage : List BusEvent
  slidesIN : ℕ → Slides
  slidesOUT : ℕ → Slides
  slidesNotification : ℕ → Slides

namespace ControlState

/-! ## The general interrupt -/

/-- The state of a device that is attached and not suspended. -/
def attachedState (s : ControlState) : DeviceState :=
  if s.configurationNumber ≠ 0 then .configured
  else if s.addressEnabled then .configured
  else .powered

/-- `ISR(USB_GEN_vect)`, for one cause. -/
def interrupt (capacity : ℕ) (s : ControlState) : BusEvent → ControlState
  | .suspend =>
    if s.suspendEnabled then
      { s with
        suspendEnabled := false
        wakeUpEnabled := true
        cdc := { s.cdc with deviceState := .unattached } }
    else s
  | .wakeUp =>
    if s.wakeUpEnabled then
      { s with
        wakeUpEnabled := false
        suspendEnabled := true
        cdc := { s.cdc with deviceState := s.attachedState } }
    else s
  | .reset addressEnabled kept epen stalled start slides =>
    { s with
      -- what the reset does to the controller
      addressEnabled := addressEnabled
      stalled := stalled
      -- what the interrupt does
      cdc := { s.cdc with deviceState := .default, dataIn := .idle, dataOut := .idle }
      configurationNumber := 0
      suspendEnabled := false
      wakeUpEnabled := true
      controller := (resetEndpoints capacity kept epen start slides s.controller).1 }

/-- Several interrupts, one after the other. -/
def interrupts (capacity : ℕ) (s : ControlState) (es : List BusEvent) : ControlState :=
  es.foldl (interrupt capacity) s

/-- The loop that waits for an OUT packet, which gives up if the device is unattached, as it
is when the bus is suspended.  The interrupts that came meanwhile are returned too. -/
def waitForOUT (capacity : ℕ) : ControlState → List (List BusEvent) →
    ControlState × List BusEvent × Bool
  | s, [] => (s, [], true)
  | s, round :: rounds =>
    let s := s.interrupts capacity round
    if s.cdc.deviceState = .unattached then (s, round, false)
    else
      let rest := waitForOUT capacity s rounds
      (rest.1, round ++ rest.2.1, rest.2.2)

/-- `Endpoint_StallTransaction` or `Endpoint_ClearStall` and `Endpoint_ResetEndpoint`, if the
endpoint is enabled; the latter empties its bank. -/
def halt (s : ControlState) (endpointIndex : ℕ) (set : Bool) : ControlState :=
  if (s.controller.endpoints endpointIndex).epen then
    if set then { s with stalled := Function.update s.stalled endpointIndex true }
    else
      { s with
        stalled := Function.update s.stalled endpointIndex false
        cdc := { s.cdc with
          dataIn := if endpointIndex = dataINEndpoint.number then .idle else s.cdc.dataIn
          dataOut := if endpointIndex = dataOUTEndpoint.number then .idle else s.cdc.dataOut } }
  else s

end ControlState

/-! ## Handlers

A handler that returns without having cleared the `SETUP` packet has done nothing, and
returns `none`. -/

/-- What a handler leaves behind: the state, the response and the interrupts that came
meanwhile. -/
structure Handled where
  state : ControlState
  response : Response
  interrupts : List BusEvent

section Handlers

variable (capacity : ℕ) (signature : UInt8 → UInt8) (r : Request) (env : Environment)
  (s : ControlState)

/-- `Endpoint_ClearStatusStage`, as the last thing that a handler does. -/
def clearStatusStage (response : Response) : Handled where
  state := s.interrupts capacity env.statusStage
  response := response
  interrupts := env.statusStage

/-- `CDC_Device_ProcessControlRequest`. -/
def cdcProcessControlRequest : Option Handled :=
  -- `Config.ControlInterfaceNumber`
  if r.wIndex ≠ 0 then none
  else if r.bRequest = cdcReqGetLineEncoding then
    if r.bmRequestType = classFromInterface then
      some (clearStatusStage capacity env s (.data s.cdc.lineEncoding.bytes))
    else none
  else if r.bRequest = cdcReqSetLineEncoding then
    if r.bmRequestType = classToInterface then
      let waited := s.waitForOUT capacity env.outRounds
      if !waited.2.2 then
        some { state := waited.1, response := .abandoned, interrupts := waited.2.1 }
      else
        let s := { waited.1 with
          cdc := { waited.1.cdc with lineEncoding := .ofPacket env.out } }
        let cleared := clearStatusStage capacity env s .done
        some { cleared with interrupts := waited.2.1 ++ cleared.interrupts }
    else none
  else if r.bRequest = cdcReqSetControlLineState then
    if r.bmRequestType = classToInterface then
      let cleared := clearStatusStage capacity env s .done
      some { cleared with state := { cleared.state with hostToDevice := r.wValue } }
    else none
  else if r.bRequest = cdcReqSendBreak then
    if r.bmRequestType = classToInterface then
      some (clearStatusStage capacity env s .done)
    else none
  else none

/-- `USB_Device_GetStatus`. -/
def getStatus : Option Handled :=
  if r.bmRequestType = standardFromDevice then
    let currentStatus : UInt8 := if s.currentlySelfPowered then featureSelfpoweredEnabled else 0
    let currentStatus :=
      if s.remoteWakeupEnabled then currentStatus ||| featureRemoteWakeupEnabled
      else currentStatus
    some (clearStatusStage capacity env s (.data (le16 currentStatus.toUInt16)))
  else if r.bmRequestType = standardFromEndpoint then
    let currentStatus : UInt8 :=
      if s.stalled (r.wIndex.toUInt8 &&& 0x0F).toNat then 1 else 0
    some (clearStatusStage capacity env s (.data (le16 currentStatus.toUInt16)))
  else none

/-- `USB_Device_ClearSetFeature`. -/
def clearSetFeature : Option Handled :=
  if r.bmRequestType &&& controlReqtypeRecipient = reqrecDevice then
    if r.wValue.toUInt8 = featureSelDeviceRemoteWakeup then
      let s := { s with remoteWakeupEnabled := decide (r.bRequest = reqSetFeature) }
      some (clearStatusStage capacity env s .done)
    else none
  else if r.bmRequestType &&& controlReqtypeRecipient = reqrecEndpoint then
    if r.wValue.toUInt8 = featureSelEndpointHalt then
      let endpointIndex := (r.wIndex.toUInt8 &&& 0x0F).toNat
      if endpointIndex = 0 then none
      else
        let s := s.halt endpointIndex (decide (r.bRequest = reqSetFeature))
        some (clearStatusStage capacity env s .done)
    -- other features of endpoints are acknowledged, too
    else some (clearStatusStage capacity env s .done)
  else none

/-- `USB_Device_SetAddress`. -/
def setAddress : Handled :=
  let deviceAddress := r.wValue.toUInt8 &&& 0x7F
  let s := { s with address := deviceAddress }
  let cleared := clearStatusStage capacity env s .done
  { cleared with
    state := { cleared.state with
      addressEnabled := true
      cdc := { cleared.state.cdc with
        deviceState := if deviceAddress ≠ 0 then .addressed else .default } } }

/-- `USB_Device_GetDescriptor`; the data stage is that of `controlWrite`, and there and after
it the handler looks for an OUT packet.  It does so also if `wLength` is 0, where a host has
no reason to send one. -/
def processGetDescriptor : Option Handled :=
  (getDescriptor signature r.wValue).map fun d =>
    let waited := s.waitForOUT capacity env.outRounds
    { state := waited.1
      response := if waited.2.2 then .data (d.take r.wLength.toNat) else .abandoned
      interrupts := waited.2.1 }

/-- `USB_Device_GetConfiguration`. -/
def getConfiguration : Handled :=
  clearStatusStage capacity env s (.data [s.configurationNumber])

/-- `EVENT_USB_Device_ConfigurationChanged`: `CDC_Device_ConfigureEndpoints` clears the state
of the interface and configures its endpoints. -/
def configurationChanged : ControlState :=
  { s with
    cdc := s.cdc.configureEndpoints
    hostToDevice := 0
    controller := (cdcConfigureEndpoints capacity env.slidesIN env.slidesOUT
      env.slidesNotification s.controller).1 }

/-- `USB_Device_SetConfiguration`. -/
def setConfiguration : Option Handled :=
  -- `FIXED_NUM_CONFIGURATIONS`
  if r.wValue.toUInt8 > 1 then none
  else
    let s := { s with configurationNumber := r.wValue.toUInt8 }
    let cleared := clearStatusStage capacity env s .done
    let s := { cleared.state with
      cdc := { cleared.state.cdc with deviceState := cleared.state.attachedState } }
    some { cleared with state := configurationChanged capacity env s }

/-- The standard requests, in the middle of `USB_Device_ProcessControlRequest`. -/
def standardRequest : Option Handled :=
  if r.bRequest = reqGetStatus then
    if r.bmRequestType = standardFromDevice ∨
        r.bmRequestType = standardFromEndpoint then
      getStatus capacity r env s
    else none
  else if r.bRequest = reqClearFeature ∨ r.bRequest = reqSetFeature then
    if r.bmRequestType = standardToDevice ∨
        r.bmRequestType = standardToEndpoint then
      clearSetFeature capacity r env s
    else none
  else if r.bRequest = reqSetAddress then
    if r.bmRequestType = standardToDevice then
      some (setAddress capacity r env s)
    else none
  else if r.bRequest = reqGetDescriptor then
    if r.bmRequestType = standardFromDevice ∨
        r.bmRequestType = standardFromInterface then
      processGetDescriptor capacity signature r env s
    else none
  else if r.bRequest = reqGetConfiguration then
    if r.bmRequestType = standardFromDevice then
      some (getConfiguration capacity env s)
    else none
  else if r.bRequest = reqSetConfiguration then
    if r.bmRequestType = standardToDevice then
      setConfiguration capacity r env s
    else none
  else none

/-- The state in which a request finds the device: the arrival of a `SETUP` packet ends a
stall of the control endpoint. -/
def ControlState.setupReceived : ControlState :=
  { s with stalled := Function.update s.stalled 0 false }

/-- `USB_Device_ProcessControlRequest`. -/
def processControlRequest : Handled :=
  match cdcProcessControlRequest capacity r env s.setupReceived with
  | some handled => handled
  | none =>
    match standardRequest capacity signature r env s.setupReceived with
    | some handled => handled
    | none =>
      { state := { s with stalled := Function.update s.stalled 0 true }
        response := .stalled
        interrupts := [] }

end Handlers

/-! ## The machine -/

/-- What happens on the bus, apart from data: a request, with the interrupts while it waits, or
an interrupt while there is no request. -/
inductive ControlEvent where
  | request (setup : ℕ → UInt8) (env : Environment)
  | interrupt (e : BusEvent)

/-- What comes of it: the response to a request, and the interrupts that have been handled. -/
structure ControlOutput where
  response : Option Response
  interrupts : List BusEvent

/-- The device, as far as control requests and the general interrupt are concerned. -/
def control (capacity : ℕ) (signature : UInt8 → UInt8) :
    Mealy ControlState ControlEvent ControlOutput where
  step s
    | .request setup env =>
      let handled := processControlRequest capacity signature (.ofSetup setup) env s
      (handled.state, { response := some handled.response, interrupts := handled.interrupts })
    | .interrupt e => (s.interrupt capacity e, { response := none, interrupts := [e] })

/-- `CDC_Device_ConfigureEndpoints` and the start of the program clear the line encoding. -/
def LineEncoding.cleared : LineEncoding where
  baudRateBPS := 0
  charFormat := 0
  parityType := 0
  dataBits := 0

/-- After `USB_Init_Device`. -/
def ControlState.initial (capacity : ℕ) (start : ℕ → ℕ) (slides : ℕ → Slides) : ControlState where
  cdc := { deviceState := .unattached, lineEncoding := .cleared, dataIn := .idle, dataOut := .idle }
  hostToDevice := 0
  configurationNumber := 0
  address := 0
  addressEnabled := false
  currentlySelfPowered := false
  remoteWakeupEnabled := false
  suspendEnabled := true
  wakeUpEnabled := false
  controller := (initDevice capacity start slides).1
  stalled := fun _ => false

end LoccFirmware.Usb
