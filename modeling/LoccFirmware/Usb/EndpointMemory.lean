import LoccFirmware.Automata.Mealy
import LoccFirmware.Coding.Masks
import LoccFirmware.Memory.Packing
import Mathlib.Tactic.IntervalCases

/-!
# The Memory of the Endpoints

The banks of all endpoints lie in one memory of the controller.  An endpoint gets its banks
when the `ALLOC` bit of its register `UECFG1X` is set: behind the nearest endpoint with a
smaller number that has some.  The banks of endpoints with greater numbers do not stay where
they are then, nor when `ALLOC` is cleared, so endpoints have to be configured in ascending
order, or their banks overlap.

`CDC_Device_ConfigureEndpoints` configures endpoints 3, 4 and 2 in this order.  It relies on
`Endpoint_ConfigureEndpoint_Prv`, which does not stop at the endpoint it is called for, but
configures all endpoints above it anew.

What the controller does with the banks above the endpoint that is being configured is not
known here: they may go anywhere, each time.  Whatever it does, after calls of
`Endpoint_ConfigureEndpoint` in any order the banks are packed in the order of the
endpoints' numbers.

## Main results

- `configureEndpoint_spec`: one call leaves the memory packed, if there is enough of it
- `endpoint_memory`: any calls in any order
-/

namespace LoccFirmware.Usb

open LoccFirmware.Automata LoccFirmware.Memory

/-! ## Registers -/

/-- Bit numbers of `UECFG0X` and `UECFG1X`. -/
def epType0 : UInt8 := 6
def epDir : UInt8 := 0
def allocBit : UInt8 := 1
def epBk0 : UInt8 := 2
def epSize0 : UInt8 := 4

/-- `ENDPOINT_TOTAL_ENDPOINTS`. -/
def endpointTotalEndpoints : ℕ := 5

/-- The registers `UECFG0X`, `UECFG1X` and `UEIENX` of an endpoint. -/
@[ext] structure EndpointConfig where
  uecfg0x : UInt8
  uecfg1x : UInt8
  ueienx : UInt8
  deriving DecidableEq

namespace EndpointConfig

/-- The `ALLOC` bit. -/
def isAlloc (e : EndpointConfig) : Bool :=
  decide (e.uecfg1x &&& (1 <<< allocBit) ≠ 0)

/-- The size of one bank, as `EPSIZE` says. -/
def bankSize (e : EndpointConfig) : ℕ :=
  8 * 2 ^ ((e.uecfg1x >>> epSize0) &&& 7).toNat

/-- How much memory an endpoint takes up: one bank or two. -/
def memory (e : EndpointConfig) : ℕ :=
  if e.isAlloc then
    if e.uecfg1x &&& (1 <<< epBk0) ≠ 0 then 2 * e.bankSize else e.bankSize
  else 0

theorem memory_ne_zero_iff {e : EndpointConfig} : e.memory ≠ 0 ↔ e.isAlloc = true := by
  have hpos : 0 < e.bankSize := Nat.mul_pos (by decide) (Nat.two_pow_pos _)
  unfold memory
  split_ifs with halloc
  · exact ⟨fun _ => halloc, fun _ => by omega⟩
  · exact ⟨fun _ => halloc, fun _ => by omega⟩
  · exact ⟨fun h => absurd rfl h, fun h => absurd h halloc⟩

theorem memory_of_not_alloc {e : EndpointConfig} (h : e.isAlloc = false) : e.memory = 0 := by
  rw [memory, h]
  rfl

end EndpointConfig

/-- All registers of an endpoint that matter here: the configuration and the bit `EPEN` of
`UECONX`. -/
@[ext] structure EndpointRegisters extends EndpointConfig where
  epen : Bool
  deriving DecidableEq

/-- The registers of all endpoints, and where their banks begin. -/
structure Controller where
  endpoints : ℕ → EndpointRegisters
  start : ℕ → ℕ

namespace Controller

variable (c : Controller)

/-- The configuration of an endpoint. -/
def config (i : ℕ) : EndpointConfig :=
  (c.endpoints i).toEndpointConfig

/-- The memory that an endpoint takes up. -/
def size (i : ℕ) : ℕ :=
  (c.config i).memory

/-- A register of endpoint `k` is written that has no influence on the memory. -/
def modify (k : ℕ) (f : EndpointRegisters → EndpointRegisters) : Controller :=
  { c with endpoints := Function.update c.endpoints k (f (c.endpoints k)) }

/-- `Endpoint_DisableEndpoint`. -/
def disableEndpoint (k : ℕ) : Controller :=
  c.modify k fun e => { e with epen := false }

/-- `Endpoint_EnableEndpoint`. -/
def enableEndpoint (k : ℕ) : Controller :=
  c.modify k fun e => { e with epen := true }

/-- `UECFG0X` of endpoint `k` is written. -/
def writeUECFG0X (k : ℕ) (value : UInt8) : Controller :=
  c.modify k fun e => { e with uecfg0x := value }

/-- `UEIENX` of endpoint `k` is written. -/
def writeUEIENX (k : ℕ) (value : UInt8) : Controller :=
  c.modify k fun e => { e with ueienx := value }

/-- `UECFG1X` of endpoint `k` is written.  If that sets `ALLOC`, the endpoint gets its place;
`slide` says where everything else goes from this endpoint on. -/
def writeUECFG1X (slide : ℕ → ℕ) (k : ℕ) (value : UInt8) : Controller where
  endpoints := Function.update c.endpoints k { c.endpoints k with uecfg1x := value }
  start := fun i =>
    if i < k then c.start i
    else if i = k ∧ !(c.config k).isAlloc ∧ value &&& (1 <<< allocBit) ≠ 0 then
      endBelow c.size c.start k
    else slide i

/-- `Endpoint_IsConfigured`: the flag `CFGOK`, which says that the banks of the endpoint are
within the memory. -/
def isConfigured (capacity : ℕ) (k : ℕ) : Bool :=
  (c.config k).isAlloc && decide (c.start k + c.size k ≤ capacity)

end Controller

/-! ## Configuring an endpoint -/

/-- Where the controller moves banks when the `ALLOC` bit of an endpoint is cleared and when
it is set. -/
structure Slides where
  freed : ℕ → ℕ
  reserved : ℕ → ℕ

/-- One round of the loop of `Endpoint_ConfigureEndpoint_Prv`: endpoint `epNum` gives up its
memory and gets it anew. -/
def reconfigure (slides : Slides) (epNum : ℕ) (temp : EndpointConfig) (c : Controller) :
    Controller :=
  let c := c.disableEndpoint epNum
  -- the memory is given up here
  let c := c.writeUECFG1X slides.freed epNum ((c.config epNum).uecfg1x &&& ~~~(1 <<< allocBit))
  let c := c.enableEndpoint epNum
  let c := c.writeUECFG0X epNum temp.uecfg0x
  -- and reserved here
  let c := c.writeUECFG1X slides.reserved epNum temp.uecfg1x
  c.writeUEIENX epNum temp.ueienx

/-- The loop of `Endpoint_ConfigureEndpoint_Prv` over the given endpoints. -/
def configureLoop (capacity number : ℕ) (data : EndpointConfig) (slides : ℕ → Slides) :
    List ℕ → Controller → Controller × Bool
  | [], c => (c, true)
  | epNum :: epNums, c =>
    -- the endpoints above get the configuration that they have
    let temp := if epNum = number then data else c.config epNum
    if !temp.isAlloc then configureLoop capacity number data slides epNums c
    else
      let c := reconfigure (slides epNum) epNum temp c
      if !c.isConfigured capacity epNum then (c, false)
      else configureLoop capacity number data slides epNums c

/-- `Endpoint_ConfigureEndpoint_Prv`. -/
def configureEndpointPrv (capacity number : ℕ) (uecfg0xData uecfg1xData : UInt8)
    (slides : ℕ → Slides) (c : Controller) : Controller × Bool :=
  configureLoop capacity number
    { uecfg0x := uecfg0xData, uecfg1x := uecfg1xData, ueienx := 0 } slides
    (List.range' number (endpointTotalEndpoints - number)) c

/-- The loop of `Endpoint_BytesToEPSizeMask`; `none` if it takes more than `n` rounds. -/
def sizeMaskLoop (bytes : UInt16) : ℕ → UInt16 → UInt8 → Option UInt8
  | 0, _, _ => none
  | n + 1, checkBytes, maskVal =>
    if checkBytes < bytes then sizeMaskLoop bytes n (checkBytes <<< 1) (maskVal + 1)
    else some maskVal

/-- `Endpoint_BytesToEPSizeMask`.  After thirteen rounds `CheckBytes` has become 0, and the
loop does not come to an end any more. -/
def bytesToEPSizeMask (bytes : UInt16) : Option UInt8 :=
  (sizeMaskLoop bytes 13 8 0).map (· <<< epSize0)

/-- The loop stops at the first size with enough room. -/
theorem sizeMaskLoop_spec (bytes : UInt16) : ∀ (n : ℕ) (checkBytes : UInt16) (maskVal : UInt8),
    bytes.toNat ≤ checkBytes.toNat * 2 ^ n → checkBytes.toNat * 2 ^ n < 2 ^ 16 →
    ∃ k ≤ n, sizeMaskLoop bytes (n + 1) checkBytes maskVal = some (maskVal + UInt8.ofNat k) ∧
      bytes.toNat ≤ checkBytes.toNat * 2 ^ k ∧
      (k = 0 ∨ checkBytes.toNat * 2 ^ k < 2 * bytes.toNat)
  | 0, checkBytes, maskVal, h, _ => by
    refine ⟨0, Nat.le_refl 0, ?_, h, Or.inl rfl⟩
    rw [sizeMaskLoop, if_neg (UInt16.not_lt.mpr (UInt16.le_iff_toNat_le.mpr (by omega)))]
    simp
  | n + 1, checkBytes, maskVal, h, hbound => by
    rw [sizeMaskLoop]
    split
    · rename_i hlt
      rw [UInt16.lt_iff_toNat_lt] at hlt
      -- as long as the bound holds, doubling does not overflow
      have hpow : checkBytes.toNat * 2 ^ (n + 1) = 2 * checkBytes.toNat * 2 ^ n := by
        rw [Nat.pow_succ']
        ac_rfl
      have hdouble : (checkBytes <<< 1).toNat = 2 * checkBytes.toNat := by
        have hle : 2 * checkBytes.toNat ≤ 2 * checkBytes.toNat * 2 ^ n :=
          Nat.le_mul_of_pos_right _ (Nat.two_pow_pos n)
        rw [UInt16.toNat_shiftLeft, Nat.shiftLeft_eq]
        show checkBytes.toNat * 2 % 2 ^ 16 = _
        omega
      obtain ⟨k, hk, hloop, hroom, hleast⟩ := sizeMaskLoop_spec bytes n (checkBytes <<< 1)
        (maskVal + 1) (by rw [hdouble]; omega) (by rw [hdouble]; omega)
      rw [hdouble] at hroom hleast
      have hdouble' : checkBytes.toNat * 2 ^ (k + 1) = 2 * checkBytes.toNat * 2 ^ k := by
        rw [Nat.pow_succ']
        ac_rfl
      refine ⟨k + 1, Nat.succ_le_succ hk, ?_, by omega, Or.inr ?_⟩
      · rw [hloop, UInt8.ofNat_add, UInt8.add_assoc, UInt8.add_comm 1]
        rfl
      · rcases hleast with rfl | hleast
        · omega
        · omega
    · rename_i hle
      rw [UInt16.not_lt, UInt16.le_iff_toNat_le] at hle
      exact ⟨0, Nat.zero_le _, by simp, by omega, Or.inl rfl⟩

/-- Up to 1024 bytes, the mask fits into the three bits of `EPSIZE`. -/
theorem bytesToEPSizeMask_spec {bytes : UInt16} (h : bytes ≤ 1024) :
    ∃ k ≤ 7, bytesToEPSizeMask bytes = some (UInt8.ofNat k <<< epSize0) ∧
      bytes.toNat ≤ 8 * 2 ^ k ∧ (k = 0 ∨ 8 * 2 ^ k < 2 * bytes.toNat) := by
  have hle : bytes.toNat ≤ 1024 := UInt16.le_iff_toNat_le.mp h
  obtain ⟨k, -, hloop, hroom, hleast⟩ := sizeMaskLoop_spec bytes 12 8 0
    (Nat.le_trans hle (by decide)) (by decide)
  have height : (8 : UInt16).toNat = 8 := rfl
  rw [height] at hroom hleast
  refine ⟨k, ?_, by rw [bytesToEPSizeMask, hloop, UInt8.zero_add]; rfl, hroom, hleast⟩
  by_contra hbig
  have hpow : 2 ^ 8 ≤ 2 ^ k := Nat.pow_le_pow_right (by decide) (by omega)
  omega

/-- `USB_Endpoint_Table_t`, with a size that the controller can be told. -/
structure EndpointTable where
  address : UInt8
  type : UInt8
  size : UInt16
  banks : UInt8
  size_le : size ≤ 1024
  deriving DecidableEq

namespace EndpointTable

variable (t : EndpointTable)

/-- The number in an address. -/
def number : ℕ :=
  (t.address &&& 0x0F).toNat

/-- The bits for the size in `UECFG1X`. -/
def sizeMask : UInt8 :=
  (bytesToEPSizeMask t.size).get (by
    obtain ⟨k, -, hmask, -⟩ := bytesToEPSizeMask_spec t.size_le
    rw [hmask]
    rfl)

/-- The values that `Endpoint_ConfigureEndpoint` computes for the registers. -/
def data : EndpointConfig where
  uecfg0x := (t.type <<< epType0) ||| (if t.address &&& 0x80 ≠ 0 then 1 <<< epDir else 0)
  uecfg1x := (1 <<< allocBit) ||| (if t.banks > 1 then 1 <<< epBk0 else 0) ||| t.sizeMask
  ueienx := 0

end EndpointTable

/-- `Endpoint_ConfigureEndpoint`. -/
def configureEndpoint (capacity : ℕ) (t : EndpointTable) (slides : ℕ → Slides) (c : Controller) :
    Controller × Bool :=
  if t.number ≥ endpointTotalEndpoints then (c, false)
  else configureEndpointPrv capacity t.number t.data.uecfg0x t.data.uecfg1x slides c

/-! ## One round -/

namespace Controller

variable {c : Controller} {k : ℕ}

theorem writeUECFG1X_start_of_lt (slide : ℕ → ℕ) (value : UInt8) {i : ℕ} (hi : i < k) :
    (c.writeUECFG1X slide k value).start i = c.start i :=
  if_pos hi

/-- An endpoint that has no banks gets them behind the nearest one below it. -/
theorem writeUECFG1X_start_self {slide : ℕ → ℕ} {value : UInt8}
    (hfree : (c.config k).isAlloc = false) (hvalue : value &&& (1 <<< allocBit) ≠ 0) :
    (c.writeUECFG1X slide k value).start k = endBelow c.size c.start k := by
  simp [writeUECFG1X, hfree, hvalue]

end Controller

section Round

variable (slides : Slides) (k : ℕ) (temp : EndpointConfig) (c : Controller)

/-- An endpoint without memory, as it is halfway through a round. -/
def halfway : Controller :=
  (((c.disableEndpoint k).writeUECFG1X slides.freed k
    ((c.config k).uecfg1x &&& ~~~(1 <<< allocBit))).enableEndpoint k).writeUECFG0X k temp.uecfg0x

theorem reconfigure_eq_halfway :
    reconfigure slides k temp c =
      ((halfway slides k temp c).writeUECFG1X slides.reserved k temp.uecfg1x).writeUEIENX k
        temp.ueienx := by
  have hconfig : ((c.disableEndpoint k).config k).uecfg1x = (c.config k).uecfg1x := by
    simp [Controller.disableEndpoint, Controller.modify, Controller.config]
  simp only [reconfigure, halfway, hconfig]

theorem halfway_endpoints :
    (halfway slides k temp c).endpoints =
      Function.update c.endpoints k
        { uecfg0x := temp.uecfg0x
          uecfg1x := (c.config k).uecfg1x &&& ~~~(1 <<< allocBit)
          ueienx := (c.config k).ueienx
          epen := true } := by
  simp [halfway, Controller.writeUECFG1X, Controller.writeUECFG0X, Controller.enableEndpoint,
    Controller.disableEndpoint, Controller.modify, Controller.config]

theorem halfway_isAlloc : ((halfway slides k temp c).config k).isAlloc = false := by
  rw [Controller.config, halfway_endpoints, Function.update_self]
  simp [EndpointConfig.isAlloc, Coding.andNot_and_self_mask]

theorem halfway_size {i : ℕ} (hi : i < k) : (halfway slides k temp c).size i = c.size i := by
  rw [Controller.size, Controller.config, halfway_endpoints,
    Function.update_of_ne (Nat.ne_of_lt hi)]
  rfl

theorem halfway_start {i : ℕ} (hi : i < k) : (halfway slides k temp c).start i = c.start i :=
  Controller.writeUECFG1X_start_of_lt _ _ hi

theorem reconfigure_endpoints :
    (reconfigure slides k temp c).endpoints =
      Function.update c.endpoints k { temp with epen := true } := by
  rw [reconfigure_eq_halfway]
  simp [Controller.writeUEIENX, Controller.writeUECFG1X, Controller.modify, halfway_endpoints]

theorem reconfigure_start_of_lt {i : ℕ} (hi : i < k) :
    (reconfigure slides k temp c).start i = c.start i := by
  rw [reconfigure_eq_halfway, ← halfway_start slides k temp c hi]
  exact Controller.writeUECFG1X_start_of_lt _ _ hi

theorem reconfigure_start_self (h : temp.isAlloc = true) :
    (reconfigure slides k temp c).start k = endBelow c.size c.start k := by
  rw [reconfigure_eq_halfway]
  -- where the banks below end has not changed halfway through
  refine (Controller.writeUECFG1X_start_self (halfway_isAlloc slides k temp c) ?_).trans ?_
  · simpa [EndpointConfig.isAlloc] using h
  · exact endBelow_congr (fun i hi => halfway_size slides k temp c hi)
      (fun i hi => halfway_start slides k temp c hi)

end Round

/-! ## One call -/

/-- The memory of each endpoint in a table of configurations. -/
def sizes (table : ℕ → EndpointConfig) (i : ℕ) : ℕ :=
  (table i).memory

/-- The endpoints below `n` are configured as the table says, lie one behind the other in the
memory and are enabled; above, the endpoint that is to be configured may not have its new
configuration yet. -/
structure Between (number : ℕ) (table : ℕ → EndpointConfig) (n : ℕ) (c : Controller) : Prop where
  config : ∀ i, i < n ∨ i ≠ number → c.config i = table i
  packed : Packed (sizes table) c.start n
  enabled : ∀ i < n, (table i).isAlloc = true → (c.endpoints i).epen = true

section Call

variable {capacity number n : ℕ} {table : ℕ → EndpointConfig} {c : Controller}

theorem Between.temp_eq (h : Between number table n c) :
    (if n = number then table number else c.config n) = table n := by
  split
  · rename_i hn
    rw [hn]
  · rename_i hn
    exact h.config n (Or.inr hn)

/-- A round over an endpoint without banks has nothing to do. -/
theorem Between.skip (h : Between number table n c) (hnumber : (table number).isAlloc = true)
    (hfree : (table n).isAlloc = false) : Between number table (n + 1) c where
  config i hi := by
    rcases hi with hi | hi
    · rcases Nat.lt_succ_iff_lt_or_eq.mp hi with hlt | rfl
      · exact h.config i (Or.inl hlt)
      -- the endpoint that is to be configured gets banks, so it is not this one
      · refine h.config i (Or.inr ?_)
        rintro rfl
        cases hfree.symm.trans hnumber
    · exact h.config i (Or.inr hi)
  packed := h.packed.succ fun hsome =>
    absurd (EndpointConfig.memory_of_not_alloc hfree) hsome
  enabled i hi halloc := by
    rcases Nat.lt_succ_iff_lt_or_eq.mp hi with hlt | rfl
    · exact h.enabled i hlt halloc
    · cases hfree.symm.trans halloc

/-- Where the banks of the next endpoint go. -/
theorem Between.endBelow_eq (h : Between number table n c) :
    endBelow c.size c.start n = offset (sizes table) n := by
  rw [← h.packed.endBelow_eq]
  exact endBelow_congr (fun i hi => congrArg EndpointConfig.memory (h.config i (Or.inl hi)))
    (fun _ _ => rfl)

/-- A round over an endpoint with banks puts them behind those before. -/
theorem Between.reconfigure (h : Between number table n c) (slides : Slides)
    (halloc : (table n).isAlloc = true) :
    Between number table (n + 1) (reconfigure slides n (table n) c) where
  config i hi := by
    rw [Controller.config, reconfigure_endpoints]
    -- a round writes the registers of one endpoint only
    by_cases hn : i = n
    · rw [hn, Function.update_self]
    · rw [Function.update_of_ne hn]
      refine h.config i (hi.imp_left fun hlt => ?_)
      omega
  packed := by
    -- the banks below stay where they are, and the new ones begin where they end
    have hbelow : Packed (sizes table) (Usb.reconfigure slides n (table n) c).start n :=
      h.packed.congr (fun _ _ => rfl)
        (fun i hi => (reconfigure_start_of_lt slides n (table n) c hi).symm)
    refine hbelow.succ fun _ => ?_
    rw [reconfigure_start_self slides n (table n) c halloc, h.endBelow_eq, hbelow.endBelow_eq]
  enabled i hi htable := by
    rw [reconfigure_endpoints]
    by_cases hn : i = n
    · rw [hn, Function.update_self]
    · rw [Function.update_of_ne hn]
      exact h.enabled i (by omega) htable

/-- `CFGOK` after a round. -/
theorem Between.isConfigured_reconfigure (h : Between number table n c) (capacity : ℕ)
    (slides : Slides) (halloc : (table n).isAlloc = true) :
    (Usb.reconfigure slides n (table n) c).isConfigured capacity n = true ↔
      offset (sizes table) (n + 1) ≤ capacity := by
  have hnext := h.reconfigure slides halloc
  have hconfig := hnext.config n (Or.inl (Nat.lt_succ_self n))
  have hstart := hnext.packed n (Nat.lt_succ_self n)
    (EndpointConfig.memory_ne_zero_iff.mpr halloc)
  rw [Controller.isConfigured, Controller.size, hconfig, halloc, hstart, offset_succ]
  simp [sizes]

/-- The loop succeeds if there is memory enough for all endpoints, and then they are laid
    out. -/
theorem configureLoop_spec (hnumber : (table number).isAlloc = true) (slides : ℕ → Slides) :
    ∀ (m : ℕ) {n : ℕ} {c : Controller}, number ≤ n + m → Between number table n c →
      offset (sizes table) n ≤ capacity →
      ((configureLoop capacity number (table number) slides (List.range' n m) c).2 = true ↔
        offset (sizes table) (n + m) ≤ capacity) ∧
      ((configureLoop capacity number (table number) slides (List.range' n m) c).2 = true →
        Between number table (n + m)
          (configureLoop capacity number (table number) slides (List.range' n m) c).1)
  | 0, n, c, _, hc, hfits => ⟨⟨fun _ => hfits, fun _ => rfl⟩, fun _ => hc⟩
  | m + 1, n, c, hle, hc, hfits => by
    -- one round, which keeps `Between`, and then the rest
    have hmono : offset (sizes table) (n + 1) ≤ offset (sizes table) (n + (m + 1)) :=
      offset_mono (by omega)
    have hassoc : n + 1 + m = n + (m + 1) := by omega
    rw [List.range'_succ, configureLoop, hc.temp_eq]
    by_cases halloc : (table n).isAlloc = true
    · have hok := hc.isConfigured_reconfigure capacity (slides n) halloc
      simp only [halloc, Bool.not_true, Bool.false_eq_true, if_false]
      by_cases hroom : offset (sizes table) (n + 1) ≤ capacity
      · simp only [hok.mpr hroom, Bool.not_true, Bool.false_eq_true, if_false]
        rw [← hassoc]
        exact configureLoop_spec hnumber slides m (by omega) (hc.reconfigure (slides n) halloc)
          hroom
      -- `CFGOK` is not set: the loop returns, and there is not enough memory for all
      · have hno := Bool.eq_false_iff.mpr (fun h => hroom (hok.mp h))
        simp only [hno, Bool.not_false, if_true]
        exact ⟨⟨fun h => absurd h Bool.false_ne_true,
          fun h => absurd (Nat.le_trans hmono h) hroom⟩, fun h => absurd h Bool.false_ne_true⟩
    · have hfree := Bool.eq_false_iff.mpr halloc
      simp only [hfree, Bool.not_false, if_true]
      rw [← hassoc]
      have hskip := hc.skip hnumber hfree
      refine configureLoop_spec hnumber slides m (by omega) hskip ?_
      rwa [offset_succ, sizes, EndpointConfig.memory_of_not_alloc hfree, Nat.add_zero]

end Call

/-- All endpoints are configured as the table says, their banks lie one behind the other, and
those that have banks are enabled. -/
structure LaidOut (table : ℕ → EndpointConfig) (c : Controller) : Prop where
  config : ∀ i, c.config i = table i
  packed : Packed (sizes table) c.start endpointTotalEndpoints
  enabled : ∀ i < endpointTotalEndpoints, (table i).isAlloc = true → (c.endpoints i).epen = true

namespace LaidOut

variable {capacity : ℕ} {table : ℕ → EndpointConfig} {c : Controller}

theorem size_eq (h : LaidOut table c) (i : ℕ) : c.size i = sizes table i :=
  congrArg EndpointConfig.memory (h.config i)

/-- Endpoints that are laid out do not get in each other's way. -/
theorem no_overlap (h : LaidOut table c)
    (hroom : offset (sizes table) endpointTotalEndpoints ≤ capacity) :
    (∀ i, c.config i = table i) ∧
    (∀ i < endpointTotalEndpoints, (c.config i).isAlloc = true →
      (c.endpoints i).epen = true ∧ c.start i + c.size i ≤ capacity) ∧
    (∀ i j, i < j → j < endpointTotalEndpoints → (c.config i).isAlloc = true →
      (c.config j).isAlloc = true → c.start i + c.size i ≤ c.start j) := by
  refine ⟨h.config, fun i hi halloc => ?_, fun i j hij hj hallocI hallocJ => ?_⟩
  · rw [h.config] at halloc
    refine ⟨h.enabled i hi halloc, Nat.le_trans ?_ hroom⟩
    rw [h.size_eq]
    exact h.packed.within hi (EndpointConfig.memory_ne_zero_iff.mpr halloc)
  · rw [h.config] at hallocI hallocJ
    rw [h.size_eq]
    exact h.packed.disjoint hij hj (EndpointConfig.memory_ne_zero_iff.mpr hallocI)
      (EndpointConfig.memory_ne_zero_iff.mpr hallocJ)

end LaidOut

namespace EndpointTable

theorem data_isAlloc (t : EndpointTable) : t.data.isAlloc = true := by
  have hmask : t.data.uecfg1x &&& (1 <<< allocBit) = 1 <<< allocBit := by
    simp only [data]
    rw [UInt8.or_assoc, UInt8.or_comm, Coding.or_and_self_mask]
  rw [EndpointConfig.isAlloc, hmask]
  decide

/-- A bank has the least size with room for as many bytes as were asked for, of the eight
    sizes from 8 to 1024 that a bank can have. -/
theorem data_bankSize (t : EndpointTable) :
    ∃ k ≤ 7, t.data.bankSize = 8 * 2 ^ k ∧ t.size.toNat ≤ t.data.bankSize ∧
      (k = 0 ∨ t.data.bankSize < 2 * t.size.toNat) := by
  obtain ⟨k, hk, hmask, hroom, hleast⟩ := bytesToEPSizeMask_spec t.size_le
  have hregister : t.data.uecfg1x = (1 <<< allocBit) |||
      (if t.banks > 1 then 1 <<< epBk0 else 0) ||| UInt8.ofNat k <<< epSize0 := by
    simp only [data, sizeMask, hmask, Option.get_some]
  have hsize : t.data.bankSize = 8 * 2 ^ k := by
    rw [EndpointConfig.bankSize, hregister]
    -- neither `ALLOC` nor the number of banks gets in the way of `EPSIZE`
    by_cases hbanks : t.banks > 1
    · rw [if_pos hbanks]
      interval_cases k <;> decide
    · rw [if_neg hbanks]
      interval_cases k <;> decide
  rw [hsize]
  exact ⟨k, hk, rfl, hroom, hleast⟩

end EndpointTable

section Call

variable {capacity : ℕ} {table : ℕ → EndpointConfig} {c : Controller}

/-- **One call** of `Endpoint_ConfigureEndpoint` on endpoints that are packed below the one
    it is called for: it succeeds if and only if the memory is large enough for all
    endpoints, and then they are all laid out. -/
theorem configureEndpoint_spec (t : EndpointTable) (slides : ℕ → Slides)
    (hconfig : ∀ i, c.config i = table i) (hpacked : Packed (sizes table) c.start t.number)
    (henabled : ∀ i < t.number, (table i).isAlloc = true → (c.endpoints i).epen = true)
    (hfits : offset (sizes table) t.number ≤ capacity) :
    ((configureEndpoint capacity t slides c).2 = true ↔ t.number < endpointTotalEndpoints ∧
      offset (sizes (Function.update table t.number t.data)) endpointTotalEndpoints ≤ capacity) ∧
    ((configureEndpoint capacity t slides c).2 = true →
      LaidOut (Function.update table t.number t.data)
        (configureEndpoint capacity t slides c).1) := by
  rw [configureEndpoint]
  split
  · rename_i hbig
    exact ⟨⟨fun h => absurd h Bool.false_ne_true, fun h => absurd h.1 (Nat.not_lt.mpr hbig)⟩,
      fun h => absurd h Bool.false_ne_true⟩
  · rename_i hsmall
    have hnumber : t.number < endpointTotalEndpoints := Nat.lt_of_not_le hsmall
    -- the loop begins with the new table, which the registers do not show yet
    set table' := Function.update table t.number t.data with htable
    have hdata : table' t.number = t.data := Function.update_self _ _ _
    have hsame : ∀ i, i < t.number ∨ i ≠ t.number → table' i = table i := fun i hi =>
      Function.update_of_ne (hi.elim Nat.ne_of_lt id) _ _
    have hsizes : ∀ i < t.number, sizes table i = sizes table' i := fun i hi =>
      congrArg EndpointConfig.memory (hsame i (Or.inl hi)).symm
    have hstart : Between t.number table' t.number c :=
      { config := fun i hi => (hconfig i).trans (hsame i hi).symm
        packed := hpacked.congr hsizes fun _ _ => rfl
        enabled := fun i hi halloc => henabled i hi (by rwa [← hsame i (Or.inl hi)]) }
    have hend : t.number + (endpointTotalEndpoints - t.number) = endpointTotalEndpoints := by
      omega
    have hloop := configureLoop_spec (by rw [hdata]; exact t.data_isAlloc) slides
      (endpointTotalEndpoints - t.number) (by omega) hstart (offset_congr hsizes ▸ hfits)
    rw [hend, hdata] at hloop
    refine ⟨hloop.1.trans ⟨fun h => ⟨hnumber, h⟩, fun h => h.2⟩, fun h => ?_⟩
    have hbetween := hloop.2 h
    exact { config := fun i => hbetween.config i (by omega)
            packed := hbetween.packed
            enabled := hbetween.enabled }

end Call

/-! ## Any calls -/

/-- A call of `Endpoint_ConfigureEndpoint`, and what the controller does with the memory
meanwhile. -/
structure ConfigureCall where
  table : EndpointTable
  slides : ℕ → Slides

/-- Calls of `Endpoint_ConfigureEndpoint`, one after the other. -/
def configurator (capacity : ℕ) : Mealy Controller ConfigureCall Bool where
  step c call := configureEndpoint capacity call.table call.slides c

/-- An endpoint that has not been configured. -/
def EndpointConfig.cleared : EndpointConfig where
  uecfg0x := 0
  uecfg1x := 0
  ueienx := 0

theorem EndpointConfig.cleared_isAlloc : EndpointConfig.cleared.isAlloc = false := by
  decide

/-- The controller after `USB_Controller_Reset`. -/
def Controller.cleared (start : ℕ → ℕ) : Controller where
  endpoints := fun _ => { EndpointConfig.cleared with epen := false }
  start := start

/-- The configurations that some calls ask for: for each endpoint, the last one. -/
def requested (calls : List EndpointTable) : ℕ → EndpointConfig :=
  calls.foldl (fun table t => Function.update table t.number t.data) fun _ => .cleared

/-- At any time, all endpoints that have been asked for exist, and there is memory for their
banks. -/
def Affordable (capacity : ℕ) (calls : List EndpointTable) : Prop :=
  ∀ calls', calls' <+: calls → (∀ t ∈ calls', t.number < endpointTotalEndpoints) ∧
    offset (sizes (requested calls')) endpointTotalEndpoints ≤ capacity

section Calls

variable {capacity : ℕ}

theorem requested_concat (calls : List EndpointTable) (t : EndpointTable) :
    requested (calls ++ [t]) = Function.update (requested calls) t.number t.data := by
  simp [requested]

theorem affordable_concat {calls : List EndpointTable} {t : EndpointTable} :
    Affordable capacity (calls ++ [t]) ↔ Affordable capacity calls ∧
      t.number < endpointTotalEndpoints ∧
      offset (sizes (requested (calls ++ [t]))) endpointTotalEndpoints ≤ capacity := by
  constructor
  · intro h
    have hall := h (calls ++ [t]) (List.prefix_refl _)
    refine ⟨fun calls' hpre => h calls' (hpre.trans (List.prefix_append _ _)), ?_, hall.2⟩
    exact hall.1 t (List.mem_append_right _ List.mem_cons_self)
  · rintro ⟨hbefore, hnumber, hroom⟩ calls' hpre
    -- all calls, or the first ones of those before the last
    rcases List.prefix_concat_iff.mp hpre with rfl | hpre
    · refine ⟨fun t' ht' => ?_, hroom⟩
      rcases List.mem_append.mp ht' with hold | hnew
      · exact (hbefore calls (List.prefix_refl _)).1 t' hold
      · rw [List.mem_singleton.mp hnew]
        exact hnumber
    · exact hbefore calls' hpre

theorem laidOut_cleared (start : ℕ → ℕ) : LaidOut (requested []) (.cleared start) where
  config _ := rfl
  packed _ _ hsome :=
    absurd (EndpointConfig.memory_of_not_alloc EndpointConfig.cleared_isAlloc) hsome
  enabled _ _ halloc := by cases EndpointConfig.cleared_isAlloc.symm.trans halloc

theorem LaidOut.configureEndpoint {table : ℕ → EndpointConfig} {c : Controller}
    (h : LaidOut table c) (hroom : offset (sizes table) endpointTotalEndpoints ≤ capacity)
    (t : EndpointTable) (slides : ℕ → Slides) :
    ((configureEndpoint capacity t slides c).2 = true ↔ t.number < endpointTotalEndpoints ∧
      offset (sizes (Function.update table t.number t.data)) endpointTotalEndpoints ≤ capacity) ∧
    ((configureEndpoint capacity t slides c).2 = true →
      LaidOut (Function.update table t.number t.data)
        (configureEndpoint capacity t slides c).1) := by
  by_cases hnumber : t.number < endpointTotalEndpoints
  · exact configureEndpoint_spec t slides h.config
      (fun i hi => h.packed i (Nat.lt_trans hi hnumber))
      (fun i hi => h.enabled i (Nat.lt_trans hi hnumber))
      (Nat.le_trans (offset_mono (Nat.le_of_lt hnumber)) hroom)
  · rw [Usb.configureEndpoint, if_pos (Nat.le_of_not_lt hnumber)]
    exact ⟨⟨fun h => absurd h Bool.false_ne_true, fun h => absurd h.1 hnumber⟩,
      fun h => absurd h Bool.false_ne_true⟩

/-- All calls succeed if and only if there is memory for what they ask for, and then the
    endpoints are laid out as they asked. -/
theorem configurator_laidOut (capacity : ℕ) (start : ℕ → ℕ) (calls : List ConfigureCall) :
    ((∀ b ∈ (configurator capacity).outputs (.cleared start) calls, b = true) ↔
      Affordable capacity (calls.map ConfigureCall.table)) ∧
    (Affordable capacity (calls.map ConfigureCall.table) →
      LaidOut (requested (calls.map ConfigureCall.table))
        ((configurator capacity).run (.cleared start) calls)) := by
  induction calls using List.reverseRecOn with
  | nil =>
    refine ⟨⟨fun _ calls' hpre => ?_, fun _ b hb => absurd hb List.not_mem_nil⟩,
      fun _ => laidOut_cleared start⟩
    rw [List.map_nil, List.prefix_nil] at hpre
    subst hpre
    refine ⟨fun t ht => absurd ht List.not_mem_nil, ?_⟩
    have hzero : offset (sizes (requested [])) endpointTotalEndpoints = 0 := by decide
    rw [hzero]
    exact Nat.zero_le _
  | append_singleton calls call ih =>
    -- induction from the end: as long as nothing has failed, the endpoints are laid out
    obtain ⟨hsucceeded, hlaidOut⟩ := ih
    rw [Mealy.outputs_concat, Mealy.run_concat, List.map_append, List.map_singleton,
      affordable_concat, requested_concat, List.forall_mem_append, List.forall_mem_singleton,
      hsucceeded]
    set c := (configurator capacity).run (.cleared start) calls
    set tables := calls.map ConfigureCall.table
    have hcall (h : Affordable capacity tables) :=
      (hlaidOut h).configureEndpoint (h tables (List.prefix_refl _)).2 call.table call.slides
    refine ⟨⟨fun h => ⟨h.1, (hcall h.1).1.mp h.2⟩, fun h => ⟨h.1, (hcall h.1).1.mpr h.2⟩⟩,
      fun h => (hcall h.1).2 ((hcall h.1).1.mpr h.2)⟩

/-- **Endpoints configured in any order**, with sizes up to 1024, and whatever the
    controller does with the banks above the one that is configured: all calls succeed if
    and only if at any time there is memory for the banks that have been asked for.  Then
    every endpoint is configured as the last call for it said and is enabled, no two
    endpoints share memory, and none goes beyond the memory.  Banks come in eight sizes from
    8 to 1024, and each endpoint gets the least one with room for what it asked for. -/
theorem endpoint_memory (capacity : ℕ) (start : ℕ → ℕ) (calls : List ConfigureCall) :
    ((∀ b ∈ (configurator capacity).outputs (.cleared start) calls, b = true) ↔
      Affordable capacity (calls.map ConfigureCall.table)) ∧
    (Affordable capacity (calls.map ConfigureCall.table) →
      let c := (configurator capacity).run (.cleared start) calls
      (∀ i, c.config i = requested (calls.map ConfigureCall.table) i) ∧
      (∀ i < endpointTotalEndpoints, (c.config i).isAlloc = true →
        (c.endpoints i).epen = true ∧ c.start i + c.size i ≤ capacity) ∧
      (∀ i j, i < j → j < endpointTotalEndpoints → (c.config i).isAlloc = true →
        (c.config j).isAlloc = true → c.start i + c.size i ≤ c.start j)) ∧
    (∀ call ∈ calls, ∃ k ≤ 7, call.table.data.bankSize = 8 * 2 ^ k ∧
      call.table.size.toNat ≤ call.table.data.bankSize ∧
      (k = 0 ∨ call.table.data.bankSize < 2 * call.table.size.toNat)) := by
  obtain ⟨hsucceeded, hlaidOut⟩ := configurator_laidOut capacity start calls
  refine ⟨hsucceeded, fun haffordable => ?_, fun call _ => call.table.data_bankSize⟩
  exact (hlaidOut haffordable).no_overlap (haffordable _ (List.prefix_refl _)).2

end Calls

end LoccFirmware.Usb
