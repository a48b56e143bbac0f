import LoccFirmware.Usb.EndpointMemory

/-!
# The Endpoints of the Device

The device has four endpoints: the control endpoint, which is configured at the start and
again after every reset of the bus, and the three endpoints of the CDC interface, which
`CDC_Device_ConfigureEndpoints` configures when the host selects a configuration.  The host
may do either as often as it likes and in any order.

The 48 bytes that the endpoints need are enough at any time, and after a configuration the
banks lie one behind the other in the order of the numbers, however the controller was left by
the reset.
-/

namespace LoccFirmware.Usb

open LoccFirmware.Automata LoccFirmware.Memory

/-! ## The endpoints of the device -/

/-- The control endpoint, as `USB_Init_Device` and the reset interrupt configure it. -/
def controlEndpoint : EndpointTable where
  address := 0x00
  type := 0x00
  size := 8
  banks := 1
  size_le := by decide

/-- `Config.DataINEndpoint`, with the type that `CDC_Device_ConfigureEndpoints` sets. -/
def dataINEndpoint : EndpointTable where
  address := 0x83
  type := 0x02
  size := 16
  banks := 1
  size_le := by decide

/-- `Config.DataOUTEndpoint`. -/
def dataOUTEndpoint : EndpointTable where
  address := 0x04
  type := 0x02
  size := 16
  banks := 1
  size_le := by decide

/-- `Config.NotificationEndpoint`. -/
def notificationEndpoint : EndpointTable where
  address := 0x82
  type := 0x03
  size := 8
  banks := 1
  size_le := by decide

/-- `Endpoint_ConfigureEndpointTable`. -/
def configureEndpointTable (capacity : ℕ) : List ConfigureCall → Controller → Controller × Bool
  | [], c => (c, true)
  | call :: calls, c =>
    if call.table.address = 0 then configureEndpointTable capacity calls c
    else
      let result := configureEndpoint capacity call.table call.slides c
      if !result.2 then (result.1, false) else configureEndpointTable capacity calls result.1

/-- `CDC_Device_ConfigureEndpoints`, as far as the controller is concerned. -/
def cdcConfigureEndpoints (capacity : ℕ) (slidesIN slidesOUT slidesNotification : ℕ → Slides)
    (c : Controller) : Controller × Bool :=
  let dataIN := configureEndpointTable capacity [⟨dataINEndpoint, slidesIN⟩] c
  if !dataIN.2 then (dataIN.1, false)
  else
    let dataOUT := configureEndpointTable capacity [⟨dataOUTEndpoint, slidesOUT⟩] dataIN.1
    if !dataOUT.2 then (dataOUT.1, false)
    else
      let notification :=
        configureEndpointTable capacity [⟨notificationEndpoint, slidesNotification⟩] dataOUT.1
      if !notification.2 then (notification.1, false) else (notification.1, true)

/-- A reset of the bus: some endpoints may keep their configuration, and everything may be
disabled and moved. -/
def Controller.busReset (kept epen : ℕ → Bool) (start : ℕ → ℕ) (c : Controller) : Controller where
  endpoints := fun i =>
    { (if kept i then c.config i else EndpointConfig.cleared) with epen := epen i }
  start := start

/-- The bit `RXSTPE` of `UEIENX`. -/
def rxstpe : UInt8 := 3

/-- `USB_INT_Enable(USB_INT_RXSTPI)`, with the control endpoint selected. -/
def Controller.enableRXSTPI (c : Controller) : Controller :=
  c.writeUEIENX 0 ((c.config 0).ueienx ||| (1 <<< rxstpe))

/-- A reset of the bus and what its interrupt does to the endpoints: the control endpoint is
configured, and its interrupt for `SETUP` packets enabled. -/
def resetEndpoints (capacity : ℕ) (kept epen : ℕ → Bool) (start : ℕ → ℕ) (slides : ℕ → Slides)
    (c : Controller) : Controller × Bool :=
  let configured := configureEndpoint capacity controlEndpoint slides (c.busReset kept epen start)
  -- the control endpoint is the selected one
  (configured.1.enableRXSTPI, configured.2)

/-- What happens to the endpoints: the host resets the bus, to which the interrupt answers by
configuring the control endpoint, or it selects a configuration. -/
inductive EndpointEvent where
  | reset (kept epen : ℕ → Bool) (start : ℕ → ℕ) (slides : ℕ → Slides)
  | configurationChanged (slidesIN slidesOUT slidesNotification : ℕ → Slides)

/-- The endpoints of the device over time; the output says whether all went well. -/
def deviceEndpoints (capacity : ℕ) : Mealy Controller EndpointEvent Bool where
  step c
    | .reset kept epen start slides => resetEndpoints capacity kept epen start slides c
    | .configurationChanged slidesIN slidesOUT slidesNotification =>
      cdcConfigureEndpoints capacity slidesIN slidesOUT slidesNotification c

/-- The configurations that the device uses. -/
def deviceTable : ℕ → EndpointConfig
  | 0 => controlEndpoint.data
  | 2 => notificationEndpoint.data
  | 3 => dataINEndpoint.data
  | 4 => dataOUTEndpoint.data
  | _ => .cleared

/-- What a configuration says of the endpoint and its banks, apart from its interrupts. -/
def EndpointConfig.layout (e : EndpointConfig) : UInt8 × UInt8 :=
  (e.uecfg0x, e.uecfg1x)

/-- Endpoints have no other configurations than those of the device. -/
def Own (table : ℕ → EndpointConfig) : Prop :=
  ∀ i, (table i).layout = (deviceTable i).layout ∨ (table i).isAlloc = false

namespace EndpointConfig

variable {e e' : EndpointConfig}

theorem memory_of_layout (h : e.layout = e'.layout) : e.memory = e'.memory := by
  have huecfg1x : e.uecfg1x = e'.uecfg1x := congrArg Prod.snd h
  rw [memory, memory, isAlloc, isAlloc, bankSize, bankSize, huecfg1x]

theorem isAlloc_of_layout (h : e.layout = e'.layout) : e.isAlloc = e'.isAlloc := by
  have huecfg1x : e.uecfg1x = e'.uecfg1x := congrArg Prod.snd h
  rw [isAlloc, isAlloc, huecfg1x]

end EndpointConfig

/-- A table with other interrupts enabled for one endpoint. -/
def withUEIENX (table : ℕ → EndpointConfig) (k : ℕ) (value : UInt8) : ℕ → EndpointConfig :=
  fun i => if i = k then { table i with ueienx := value } else table i

theorem withUEIENX_layout (table : ℕ → EndpointConfig) (k : ℕ) (value : UInt8) (i : ℕ) :
    (withUEIENX table k value i).layout = (table i).layout := by
  unfold withUEIENX
  split <;> rfl

namespace Controller

variable (c : Controller) (k : ℕ) (value : UInt8) (i : ℕ)

theorem writeUEIENX_config :
    (c.writeUEIENX k value).config i = withUEIENX c.config k value i := by
  unfold config writeUEIENX modify withUEIENX
  by_cases hi : i = k
  · subst hi
    simp only [Function.update_self, if_true]
  · simp only [Function.update_of_ne hi, if_neg hi]

theorem writeUEIENX_epen : ((c.writeUEIENX k value).endpoints i).epen = (c.endpoints i).epen := by
  unfold writeUEIENX modify
  by_cases hi : i = k
  · subst hi
    simp only [Function.update_self]
  · simp only [Function.update_of_ne hi]

end Controller

/-- Enabling an interrupt of an endpoint moves nothing. -/
theorem LaidOut.writeUEIENX {table : ℕ → EndpointConfig} {c : Controller} (h : LaidOut table c)
    (k : ℕ) (value : UInt8) : LaidOut (withUEIENX table k value) (c.writeUEIENX k value) where
  config i := by
    have hconfig : c.config = table := funext h.config
    rw [Controller.writeUEIENX_config, hconfig]
  packed := h.packed.congr
    (fun i _ => (EndpointConfig.memory_of_layout (withUEIENX_layout table k value i)).symm)
    fun _ _ => rfl
  enabled i hi halloc := by
    rw [EndpointConfig.isAlloc_of_layout (withUEIENX_layout table k value i)] at halloc
    rw [Controller.writeUEIENX_epen]
    exact h.enabled i hi halloc

section Device

variable {spare : ℕ} {table : ℕ → EndpointConfig} {c : Controller}

theorem Own.room (h : Own table) (spare : ℕ) :
    offset (sizes table) endpointTotalEndpoints ≤ 48 + spare := by
  have hdevice : offset (sizes deviceTable) endpointTotalEndpoints = 48 := by decide
  calc offset (sizes table) endpointTotalEndpoints
      ≤ offset (sizes deviceTable) endpointTotalEndpoints := offset_le_offset fun i _ => by
        rcases h i with heq | hfree
        · exact Nat.le_of_eq (EndpointConfig.memory_of_layout heq)
        · rw [sizes, EndpointConfig.memory_of_not_alloc hfree]
          exact Nat.zero_le _
    _ = 48 := hdevice
    _ ≤ 48 + spare := Nat.le_add_right _ _

theorem Own.update (h : Own table) (t : EndpointTable) (ht : deviceTable t.number = t.data) :
    Own (Function.update table t.number t.data) := by
  intro i
  by_cases hi : i = t.number
  · subst hi
    rw [Function.update_self]
    exact Or.inl (congrArg EndpointConfig.layout ht.symm)
  · rw [Function.update_of_ne hi]
    exact h i

/-- A call for one of the device's endpoints. -/
theorem LaidOut.configureOwn (h : LaidOut table c) (hown : Own table) (spare : ℕ)
    (t : EndpointTable) (hnumber : t.number < endpointTotalEndpoints)
    (ht : deviceTable t.number = t.data) (slides : ℕ → Slides) :
    (Usb.configureEndpoint (48 + spare) t slides c).2 = true ∧
      LaidOut (Function.update table t.number t.data)
        (Usb.configureEndpoint (48 + spare) t slides c).1 := by
  obtain ⟨hok, hlaidOut⟩ := h.configureEndpoint (hown.room spare) t slides
  have hsucceeds := hok.mpr ⟨hnumber, (hown.update t ht).room spare⟩
  exact ⟨hsucceeds, hlaidOut hsucceeds⟩

/-- One endpoint, by `Endpoint_ConfigureEndpointTable`. -/
theorem configureEndpointTable_single {capacity : ℕ} {t : EndpointTable} (ht : t.address ≠ 0)
    {slides : ℕ → Slides} (hok : (configureEndpoint capacity t slides c).2 = true) :
    configureEndpointTable capacity [⟨t, slides⟩] c =
      ((configureEndpoint capacity t slides c).1, true) := by
  simp [configureEndpointTable, ht, hok]

/-- What holds at any time: the endpoints have the device's configurations, the control
endpoint has its own, and they are laid out. -/
structure InOrder (table : ℕ → EndpointConfig) (c : Controller) : Prop where
  own : Own table
  control : (table 0).layout = controlEndpoint.data.layout
  laidOut : LaidOut table c

/-- Configuring the control endpoint brings everything in order, however the controller was
    left. -/
theorem configureEndpoint_control (hown : Own table) (hconfig : ∀ i, c.config i = table i)
    (spare : ℕ) (slides : ℕ → Slides) :
    (configureEndpoint (48 + spare) controlEndpoint slides c).2 = true ∧
      InOrder (Function.update table 0 controlEndpoint.data)
        (configureEndpoint (48 + spare) controlEndpoint slides c).1 := by
  have hown' : Own (Function.update table 0 controlEndpoint.data) :=
    hown.update controlEndpoint rfl
  -- no endpoint lies below this one, so nothing has to be packed before the call
  have hbelow : offset (sizes table) controlEndpoint.number ≤ 48 + spare := Nat.zero_le _
  obtain ⟨hok, hlaidOut⟩ := configureEndpoint_spec controlEndpoint slides hconfig Packed.zero
    (fun i hi => absurd hi (Nat.not_lt_zero i)) hbelow
  have hsucceeds := hok.mpr ⟨by decide, hown'.room spare⟩
  refine ⟨hsucceeds, hown', ?_, hlaidOut hsucceeds⟩
  rw [Function.update_self]

/-- Enabling an interrupt leaves everything in order. -/
theorem InOrder.writeUEIENX (h : InOrder table c) (k : ℕ) (value : UInt8) :
    InOrder (withUEIENX table k value) (c.writeUEIENX k value) where
  own i := by
    have hlayout := withUEIENX_layout table k value i
    rw [hlayout, EndpointConfig.isAlloc_of_layout hlayout]
    exact h.own i
  control := (withUEIENX_layout table k value 0).trans h.control
  laidOut := h.laidOut.writeUEIENX k value

/-- Configuring the endpoints of the interface: 3, 4 and then 2. -/
theorem InOrder.cdcConfigureEndpoints (h : InOrder table c) (spare : ℕ)
    (slidesIN slidesOUT slidesNotification : ℕ → Slides) :
    (cdcConfigureEndpoints (48 + spare) slidesIN slidesOUT slidesNotification c).2 = true ∧
      ∃ table', InOrder table'
          (Usb.cdcConfigureEndpoints (48 + spare) slidesIN slidesOUT slidesNotification c).1 ∧
        ∀ i < endpointTotalEndpoints, sizes table' i = sizes deviceTable i ∧
          ((deviceTable i).isAlloc = true → (table' i).layout = (deviceTable i).layout) := by
  obtain ⟨hokIN, hlaidIN⟩ :=
    h.laidOut.configureOwn h.own spare dataINEndpoint (by decide) rfl slidesIN
  have hownIN := h.own.update dataINEndpoint rfl
  obtain ⟨hokOUT, hlaidOUT⟩ :=
    hlaidIN.configureOwn hownIN spare dataOUTEndpoint (by decide) rfl slidesOUT
  have hownOUT := hownIN.update dataOUTEndpoint rfl
  obtain ⟨hok, hlaidOut⟩ := hlaidOUT.configureOwn hownOUT spare notificationEndpoint (by decide)
    rfl slidesNotification
  have hown := hownOUT.update notificationEndpoint rfl
  -- none of the three calls fails, so all of them are made
  have hresult : Usb.cdcConfigureEndpoints (48 + spare) slidesIN slidesOUT slidesNotification c =
      ((configureEndpoint (48 + spare) notificationEndpoint slidesNotification
        (configureEndpoint (48 + spare) dataOUTEndpoint slidesOUT
          (configureEndpoint (48 + spare) dataINEndpoint slidesIN c).1).1).1, true) := by
    simp only [Usb.cdcConfigureEndpoints, configureEndpointTable_single (by decide) hokIN,
      configureEndpointTable_single (by decide) hokOUT,
      configureEndpointTable_single (by decide) hok, Bool.not_true, Bool.false_eq_true, if_false]
  rw [hresult]
  refine ⟨rfl, _, ⟨hown, h.control, hlaidOut⟩, fun i hi => ?_⟩
  -- endpoint 1 is never configured, and 0 was before
  have hspare : sizes table 1 = 0 := by
    rcases h.own 1 with heq | hfree
    · exact EndpointConfig.memory_of_layout heq
    · exact EndpointConfig.memory_of_not_alloc hfree
  have hcases : i = 0 ∨ i = 1 ∨ i = 2 ∨ i = 3 ∨ i = 4 := by
    rw [endpointTotalEndpoints] at hi
    omega
  rcases hcases with rfl | rfl | rfl | rfl | rfl
  · exact ⟨EndpointConfig.memory_of_layout h.control, fun _ => h.control⟩
  · refine ⟨hspare, fun halloc => ?_⟩
    cases EndpointConfig.cleared_isAlloc.symm.trans halloc
  · exact ⟨rfl, fun _ => rfl⟩
  · exact ⟨rfl, fun _ => rfl⟩
  · exact ⟨rfl, fun _ => rfl⟩

/-- An endpoint is set up as a table says, apart from its interrupts, and enabled. -/
structure SetUp (t : EndpointTable) (start : ℕ) (c : Controller) : Prop where
  layout : (c.config t.number).layout = t.data.layout
  enabled : (c.endpoints t.number).epen = true
  start : c.start t.number = start
  size : c.size t.number = t.size.toNat

/-- Where the device's endpoints are when they are all configured. -/
theorem LaidOut.setUp (h : LaidOut table c)
    (hdevice : ∀ i < endpointTotalEndpoints, sizes table i = sizes deviceTable i ∧
      ((deviceTable i).isAlloc = true → (table i).layout = (deviceTable i).layout))
    {t : EndpointTable} (hnumber : t.number < endpointTotalEndpoints)
    (ht : deviceTable t.number = t.data) (hsize : t.data.memory = t.size.toNat) :
    SetUp t (offset (sizes deviceTable) t.number) c := by
  have halloc : (deviceTable t.number).isAlloc = true := by
    rw [ht]
    exact t.data_isAlloc
  obtain ⟨hsizes, htable⟩ := hdevice t.number hnumber
  have hlayout := htable halloc
  refine ⟨?_, ?_, ?_, ?_⟩
  · rw [h.config, hlayout, ht]
  · exact h.enabled _ hnumber ((EndpointConfig.isAlloc_of_layout hlayout).trans halloc)
  -- the banks below have the sizes of the device's table, so they end at its offset
  · have hsome : sizes table t.number ≠ 0 := by
      rw [hsizes]
      exact EndpointConfig.memory_ne_zero_iff.mpr halloc
    rw [h.packed _ hnumber hsome]
    exact offset_congr fun j hj => (hdevice j (Nat.lt_trans hj hnumber)).1
  · rw [h.size_eq, hsizes, sizes, ht, hsize]

/-- All four endpoints are set up, one behind the other. -/
structure Ready (c : Controller) : Prop where
  control : SetUp controlEndpoint 0 c
  notification : SetUp notificationEndpoint 8 c
  dataIN : SetUp dataINEndpoint 16 c
  dataOUT : SetUp dataOUTEndpoint 32 c

/-- A configuration makes the endpoints ready. -/
theorem InOrder.ready (h : InOrder table c) (spare : ℕ)
    (slidesIN slidesOUT slidesNotification : ℕ → Slides) :
    Ready (Usb.cdcConfigureEndpoints (48 + spare) slidesIN slidesOUT slidesNotification c).1 := by
  obtain ⟨-, table', hafter, hdevice⟩ :=
    h.cdcConfigureEndpoints spare slidesIN slidesOUT slidesNotification
  have hlaidOut := hafter.laidOut
  exact ⟨hlaidOut.setUp hdevice (by decide) rfl (by decide),
    hlaidOut.setUp hdevice (by decide) rfl (by decide),
    hlaidOut.setUp hdevice (by decide) rfl (by decide),
    hlaidOut.setUp hdevice (by decide) rfl (by decide)⟩

/-- **A step** keeps the endpoints in order. -/
theorem InOrder.step (h : InOrder table c) (spare : ℕ) (e : EndpointEvent) :
    ((deviceEndpoints (48 + spare)).step c e).2 = true ∧
      ∃ table', InOrder table' ((deviceEndpoints (48 + spare)).step c e).1 := by
  cases e with
  | reset kept epen start slides =>
    -- whichever endpoints the reset spares, they are still the device's own
    have hown : Own fun i => if kept i then table i else .cleared := by
      intro i
      dsimp only
      split
      · exact h.own i
      · exact Or.inr EndpointConfig.cleared_isAlloc
    have hconfig : ∀ i, (c.busReset kept epen start).config i =
        if kept i then table i else .cleared := fun i => by
      simp only [Controller.busReset, Controller.config, ← h.laidOut.config i]
    obtain ⟨hok, horder⟩ := configureEndpoint_control hown hconfig spare slides
    exact ⟨hok, _, horder.writeUEIENX 0 _⟩
  | configurationChanged slidesIN slidesOUT slidesNotification =>
    obtain ⟨hok, table', horder, -⟩ :=
      h.cdcConfigureEndpoints spare slidesIN slidesOUT slidesNotification
    exact ⟨hok, table', horder⟩

/-- The endpoints are in order after every run, and nothing has failed. -/
theorem InOrder.run (h : InOrder table c) (spare : ℕ) (events : List EndpointEvent) :
    (∀ b ∈ (deviceEndpoints (48 + spare)).outputs c events, b = true) ∧
      ∃ table', InOrder table' ((deviceEndpoints (48 + spare)).run c events) := by
  -- the table changes with every event, so it is part of the induction
  induction events generalizing table c with
  | nil => exact ⟨fun b hb => absurd hb List.not_mem_nil, table, h⟩
  | cons e events ih =>
    obtain ⟨hok, table', hstep⟩ := h.step spare e
    obtain ⟨hoks, hend⟩ := ih hstep
    rw [Mealy.outputs_cons, List.forall_mem_cons]
    exact ⟨⟨hok, hoks⟩, hend⟩

end Device

/-- `USB_Init_Device`, as far as the endpoints are concerned. -/
def initDevice (capacity : ℕ) (start : ℕ → ℕ) (slides : ℕ → Slides) : Controller × Bool :=
  configureEndpoint capacity controlEndpoint slides (.cleared start)

theorem initDevice_inOrder (spare : ℕ) (start : ℕ → ℕ) (slides : ℕ → Slides) :
    (initDevice (48 + spare) start slides).2 = true ∧
      ∃ table, InOrder table (initDevice (48 + spare) start slides).1 := by
  have hcleared : Own fun _ => .cleared := fun _ => Or.inr EndpointConfig.cleared_isAlloc
  obtain ⟨hok, hinit⟩ := configureEndpoint_control hcleared
    (fun _ => rfl : ∀ i, (Controller.cleared start).config i = .cleared) spare slides
  exact ⟨hok, _, hinit⟩

/-- **The endpoints of the device**, in a memory of 48 bytes or more: however often and in
    whatever order the bus is reset and the device is configured, and whatever the
    controller does with the memory meanwhile, no call fails, the endpoints that have banks
    are enabled, and they never share memory.  After a configuration the four endpoints lie
    at 0, 8, 16 and 32, each with as much memory as it asked for. -/
theorem device_endpoints_fit (spare : ℕ) (start : ℕ → ℕ) (slides : ℕ → Slides)
    (events : List EndpointEvent) :
    let init := initDevice (48 + spare) start slides
    let c := (deviceEndpoints (48 + spare)).run init.1 events
    (init.2 = true ∧ ∀ b ∈ (deviceEndpoints (48 + spare)).outputs init.1 events, b = true) ∧
    (∀ i < endpointTotalEndpoints, (c.config i).isAlloc = true →
      (c.endpoints i).epen = true ∧ c.start i + c.size i ≤ 48) ∧
    (∀ i j, i < j → j < endpointTotalEndpoints → (c.config i).isAlloc = true →
      (c.config j).isAlloc = true → c.start i + c.size i ≤ c.start j) ∧
    (∀ slidesIN slidesOUT slidesNotification,
      Ready (cdcConfigureEndpoints (48 + spare) slidesIN slidesOUT slidesNotification c).1) := by
  obtain ⟨hok, _, hinit⟩ := initDevice_inOrder spare start slides
  obtain ⟨hoks, table, horder⟩ := hinit.run spare events
  -- the device's own endpoints need no more than 48 bytes, whatever there is
  have hroom : offset (sizes table) endpointTotalEndpoints ≤ 48 := horder.own.room 0
  obtain ⟨-, hwithin, hdisjoint⟩ := horder.laidOut.no_overlap hroom
  exact ⟨⟨hok, hoks⟩, hwithin, hdisjoint, horder.ready spare⟩

end LoccFirmware.Usb
