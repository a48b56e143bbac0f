import LoccFirmware.Usb.ControlTransfer

/-!
# Descriptors

What the device says about itself when the host enumerates it: the descriptors of
`Descriptors.c`, which `CALLBACK_USB_GetDescriptor` finds, and the serial number that
`USB_Device_GetInternalSerialDescriptor` makes of the signature bytes of the chip.
`USB_Device_GetDescriptor` hands both to the function of the data stage.

Every descriptor tells its own length in its header, so a host that reads the header first
knows how much to ask for, and the serial number tells any two chips apart.
-/

namespace LoccFirmware.Usb

open LoccFirmware.Automata

/-! ## The parts of descriptors -/

/-- A 16-bit number, the low byte first. -/
def le16 (x : UInt16) : List UInt8 :=
  [x.toUInt8, (x >>> 8).toUInt8]

def dtypeDevice : UInt8 := 0x01
def dtypeConfiguration : UInt8 := 0x02
def dtypeString : UInt8 := 0x03
def dtypeInterface : UInt8 := 0x04
def dtypeEndpoint : UInt8 := 0x05
def dtypeCSInterface : UInt8 := 0x24

/-- `USE_INTERNAL_SERIAL`. -/
def useInternalSerial : UInt8 := 0xDC

/-- `USB_Descriptor_Interface_t`, without alternate settings and string. -/
def interfaceDescriptor (number totalEndpoints cls subClass protocol : UInt8) : List UInt8 :=
  [9, dtypeInterface, number, 0, totalEndpoints, cls, subClass, protocol, 0]

/-- `USB_Descriptor_Endpoint_t`. -/
def endpointDescriptor (address attributes : UInt8) (size : UInt16) (pollingIntervalMS : UInt8) :
    List UInt8 :=
  [7, dtypeEndpoint, address, attributes] ++ le16 size ++ [pollingIntervalMS]

/-- `USB_Descriptor_String_t`, with `USB_STRING_LEN` of its characters. -/
def stringDescriptor (unicodeString : List UInt16) : List UInt8 :=
  [UInt8.ofNat (2 + 2 * unicodeString.length), dtypeString] ++ unicodeString.flatMap le16

/-! ## The descriptors of the device -/

/-- `DeviceDescriptor`. -/
def deviceDescriptor : List UInt8 :=
  [18, dtypeDevice] ++ le16 0x0110 ++ [0x02, 0x00, 0x00, 8] ++ le16 0x03EB ++ le16 0x204B ++
    le16 0x0001 ++ [0x01, 0x02, useInternalSerial, 1]

/-- The members of `ConfigurationDescriptor` behind its header. -/
def interfaceDescriptors : List UInt8 :=
  -- the CDC control interface
  interfaceDescriptor 0 1 0x02 0x02 0x01 ++
    ([5, dtypeCSInterface, 0x00] ++ le16 0x0110) ++
    [4, dtypeCSInterface, 0x02, 0x06] ++
    [5, dtypeCSInterface, 0x06, 0, 1] ++
    endpointDescriptor 0x82 0x03 8 0xFF ++
    -- the CDC data interface
    interfaceDescriptor 1 2 0x0A 0x00 0x00 ++
    endpointDescriptor 0x04 0x02 16 0x05 ++
    endpointDescriptor 0x83 0x02 16 0x05

/-- `ConfigurationDescriptor`. -/
def configurationDescriptor : List UInt8 :=
  [9, dtypeConfiguration] ++ le16 (UInt16.ofNat (9 + interfaceDescriptors.length)) ++
    [2, 1, 0, 0xC0, 50] ++ interfaceDescriptors

/-- The characters of a wide string literal. -/
def wide (s : String) : List UInt16 :=
  s.toList.map fun c => UInt16.ofNat c.toNat

/-- `LanguageString`. -/
def languageString : List UInt8 := stringDescriptor [0x0409]

/-- `ManufacturerString`. -/
def manufacturerString : List UInt8 := stringDescriptor (wide "lynxis/jaseg")

/-- `ProductString`. -/
def productString : List UInt8 := stringDescriptor (wide "c-lab locc system")

/-- `CALLBACK_USB_GetDescriptor`; `none` is the size `NO_DESCRIPTOR`. -/
def callbackGetDescriptor (wValue : UInt16) : Option (List UInt8) :=
  let descriptorType := (wValue >>> 8).toUInt8
  let descriptorNumber := (wValue &&& 0xFF).toUInt8
  if descriptorType = dtypeDevice then some deviceDescriptor
  else if descriptorType = dtypeConfiguration then some configurationDescriptor
  else if descriptorType = dtypeString then
    if descriptorNumber = 0x00 then some languageString
    else if descriptorNumber = 0x01 then some manufacturerString
    else if descriptorNumber = 0x02 then some productString
    else none
  else none

/-! ## The serial number -/

/-- The hexadecimal digit of a nibble. -/
def hexDigit (nibble : UInt8) : UInt16 :=
  if nibble ≥ 10 then (UInt16.ofNat 'A'.toNat - 10) + nibble.toUInt16
  else UInt16.ofNat '0'.toNat + nibble.toUInt16

/-- The loop of `USB_Device_GetSerialString`, with `n` characters to go.
`boot_signature_byte_get` reads the signature. -/
def serialLoop (signature : UInt8 → UInt8) (serialCharNum : ℕ) (sigReadAddress : UInt8) :
    ℕ → List UInt16
  | 0 => []
  | n + 1 =>
    let serialByte := signature sigReadAddress
    if serialCharNum % 2 = 1 then
      hexDigit (serialByte >>> 4 &&& 0x0F) ::
        serialLoop signature (serialCharNum + 1) (sigReadAddress + 1) n
    else
      hexDigit (serialByte &&& 0x0F) :: serialLoop signature (serialCharNum + 1) sigReadAddress n

/-- `USB_Device_GetSerialString`: 80 bits from address `0x0E` on. -/
def getSerialString (signature : UInt8 → UInt8) : List UInt16 :=
  serialLoop signature 0 0x0E (80 / 4)

/-- What `USB_Device_GetDescriptor` sends for a request, if it does not refuse it: the
serial number of the chip, or what `CALLBACK_USB_GetDescriptor` finds. -/
def getDescriptor (signature : UInt8 → UInt8) (wValue : UInt16) : Option (List UInt8) :=
  if wValue = (dtypeString.toUInt16 <<< 8) ||| useInternalSerial.toUInt16 then
    some (stringDescriptor (getSerialString signature))
  else callbackGetDescriptor wValue

/-! ## The serial number tells chips apart -/

theorem hexDigit_injective {b c : UInt8} (hb : b.toNat < 16) (hc : c.toNat < 16)
    (h : hexDigit b = hexDigit c) : b = c := by
  have htable : ∀ b c : Fin 16,
      hexDigit (UInt8.ofNat b.val) = hexDigit (UInt8.ofNat c.val) → b = c := by
    decide +kernel
  have hval := htable ⟨b.toNat, hb⟩ ⟨c.toNat, hc⟩ (by simpa using h)
  exact UInt8.toNat_inj.mp (Fin.mk.inj_iff.mp hval)

theorem low_nibble_toNat (b : UInt8) : (b &&& 0x0F).toNat = b.toNat % 16 := by
  rw [UInt8.toNat_and]
  exact Nat.and_two_pow_sub_one_eq_mod b.toNat 4

theorem high_nibble_toNat (b : UInt8) : (b >>> 4 &&& 0x0F).toNat = b.toNat / 16 := by
  have hlt := b.toNat_lt
  have hshift : (b >>> 4).toNat = b.toNat / 16 := by
    simp [Nat.shiftRight_eq_div_pow]
  rw [low_nibble_toNat, hshift]
  omega

/-- The two digits of a byte determine it. -/
theorem eq_of_hexDigits {b c : UInt8} (hlow : hexDigit (b &&& 0x0F) = hexDigit (c &&& 0x0F))
    (hhigh : hexDigit (b >>> 4 &&& 0x0F) = hexDigit (c >>> 4 &&& 0x0F)) : b = c := by
  have hb := b.toNat_lt
  have hc := c.toNat_lt
  have hlow := hexDigit_injective (by rw [low_nibble_toNat]; omega)
    (by rw [low_nibble_toNat]; omega) hlow
  have hhigh := hexDigit_injective (by rw [high_nibble_toNat]; omega)
    (by rw [high_nibble_toNat]; omega) hhigh
  rw [← UInt8.toNat_inj, low_nibble_toNat, low_nibble_toNat] at hlow
  rw [← UInt8.toNat_inj, high_nibble_toNat, high_nibble_toNat] at hhigh
  exact UInt8.toNat_inj.mp (by omega)

/-- Two rounds of the loop write the digits of one byte. -/
theorem serialLoop_byte (signature : UInt8 → UInt8) {k : ℕ} (hk : k % 2 = 0) (a : UInt8) (n : ℕ) :
    serialLoop signature k a (2 * (n + 1)) =
      hexDigit (signature a &&& 0x0F) :: hexDigit (signature a >>> 4 &&& 0x0F) ::
        serialLoop signature (k + 2) (a + 1) (2 * n) := by
  have hodd : (k + 1) % 2 = 1 := by omega
  rw [show 2 * (n + 1) = 2 * n + 1 + 1 by omega]
  simp [serialLoop, hk, hodd]

/-- The loop writes the same characters for two signatures if and only if the bytes it reads
    are the same. -/
theorem serialLoop_eq_iff (signature signature' : UInt8 → UInt8) (n : ℕ) {k : ℕ}
    (hk : k % 2 = 0) (a : UInt8) :
    serialLoop signature k a (2 * n) = serialLoop signature' k a (2 * n) ↔
      ∀ i < n, signature (a + UInt8.ofNat i) = signature' (a + UInt8.ofNat i) := by
  induction n generalizing k a with
  | zero => simp [serialLoop]
  | succ n ih =>
    have hnext (i : ℕ) : a + 1 + UInt8.ofNat i = a + UInt8.ofNat (i + 1) := by
      rw [UInt8.ofNat_add, UInt8.add_comm (UInt8.ofNat i), ← UInt8.add_assoc]
      rfl
    have hfirst : a + UInt8.ofNat 0 = a := UInt8.add_zero a
    rw [serialLoop_byte signature hk, serialLoop_byte signature' hk, List.cons.injEq,
      List.cons.injEq, ih (by omega), Nat.forall_lt_succ_left, hfirst]
    simp only [hnext]
    constructor
    · exact fun h => ⟨eq_of_hexDigits h.1 h.2.1, h.2.2⟩
    · exact fun h => ⟨by rw [h.1], by rw [h.1], h.2⟩

theorem le16_injective {x y : UInt16} (h : le16 x = le16 y) : x = y := by
  simp only [le16, List.cons.injEq, and_true] at h
  have hx := x.toNat_lt
  have hy := y.toNat_lt
  have hlow := congrArg UInt8.toNat h.1
  have hhigh := congrArg UInt8.toNat h.2
  simp [Nat.shiftRight_eq_div_pow] at hlow hhigh
  exact UInt16.toNat_inj.mp (by omega)

theorem flatMap_le16_injective {xs ys : List UInt16} (h : xs.flatMap le16 = ys.flatMap le16) :
    xs = ys := by
  induction xs generalizing ys with
  | nil =>
    cases ys with
    | nil => rfl
    | cons y ys => simp [le16] at h
  | cons x xs ih =>
    cases ys with
    | nil => simp [le16] at h
    | cons y ys =>
      rw [List.flatMap_cons, List.flatMap_cons] at h
      obtain ⟨hhead, htail⟩ := List.append_inj h rfl
      rw [le16_injective hhead, ih htail]

/-- **The serial number** that the host reads is the same for two chips if and only if their
    ten signature bytes are. -/
theorem serial_number_identifies (signature signature' : UInt8 → UInt8) :
    getDescriptor signature 0x03DC = getDescriptor signature' 0x03DC ↔
      ∀ i < 10, signature (0x0E + UInt8.ofNat i) = signature' (0x0E + UInt8.ofNat i) := by
  have hserial (signature : UInt8 → UInt8) : getDescriptor signature 0x03DC =
      some (stringDescriptor (serialLoop signature 0 0x0E (2 * 10))) := if_pos (by decide)
  rw [hserial, hserial, Option.some.injEq]
  rw [← serialLoop_eq_iff signature signature' 10 (k := 0) rfl]
  constructor
  · intro h
    obtain ⟨-, hchars⟩ := List.append_inj h rfl
    exact flatMap_le16_injective hchars
  · intro h
    rw [h]

/-! ## Descriptors tell their length -/

/-- What the header of a descriptor says about its length: a configuration descriptor
counts all that comes with it. -/
def saidLength (bytes : List UInt8) : ℕ :=
  match bytes with
  | size :: type :: low :: high :: _ =>
    if type = dtypeConfiguration then low.toNat + 256 * high.toNat else size.toNat
  | _ => 0

theorem serialLoop_length (signature : UInt8 → UInt8) (k : ℕ) (a : UInt8) (n : ℕ) :
    (serialLoop signature k a n).length = n := by
  induction n generalizing k a with
  | zero => rfl
  | succ n ih =>
    rw [serialLoop]
    split
    · rw [List.length_cons, ih]
    · rw [List.length_cons, ih]

theorem flatMap_le16_length (xs : List UInt16) : (xs.flatMap le16).length = 2 * xs.length := by
  induction xs with
  | nil => rfl
  | cons x xs ih =>
    rw [List.flatMap_cons, List.length_append, ih, List.length_cons]
    simp [le16]
    omega

theorem stringDescriptor_length (chars : List UInt16) :
    (stringDescriptor chars).length = 2 + 2 * chars.length := by
  rw [stringDescriptor, List.length_append, flatMap_le16_length]
  rfl

/-- Every string descriptor of a sensible length tells it. -/
theorem saidLength_stringDescriptor {chars : List UInt16} (hne : chars ≠ [])
    (hfits : chars.length < 127) : saidLength (stringDescriptor chars) = 2 + 2 * chars.length := by
  obtain ⟨x, xs, rfl⟩ := List.exists_cons_of_ne_nil hne
  have hsize : (2 + 2 * (x :: xs).length) % 256 = 2 + 2 * (x :: xs).length :=
    Nat.mod_eq_of_lt (by omega)
  simp only [stringDescriptor, saidLength, List.flatMap_cons, le16, List.cons_append,
    List.nil_append, UInt8.toNat_ofNat', hsize]
  rfl

/-- **Every descriptor** tells its length, and none is longer than 62 bytes. -/
theorem getDescriptor_spec {signature : UInt8 → UInt8} {wValue : UInt16} {d : List UInt8}
    (hd : getDescriptor signature wValue = some d) :
    saidLength d = d.length ∧ 4 ≤ d.length ∧ d.length ≤ 62 := by
  unfold getDescriptor at hd
  split at hd
  · -- the serial number
    have hlength : (getSerialString signature).length = 20 := serialLoop_length signature 0 _ 20
    have hne : getSerialString signature ≠ [] := by
      intro hnil
      rw [hnil] at hlength
      cases hlength
    rw [← Option.some.inj hd, saidLength_stringDescriptor hne (by omega), stringDescriptor_length,
      hlength]
    decide
  · unfold callbackGetDescriptor at hd
    dsimp only at hd
    split_ifs at hd
    all_goals
      rw [← Option.some.inj hd]
      decide

/-- A read of four bytes or more tells the length of the whole descriptor. -/
theorem saidLength_take (d : List UInt8) {n : ℕ} (hn : 4 ≤ n) :
    saidLength (d.take n) = saidLength d := by
  obtain ⟨m, rfl⟩ := Nat.exists_eq_add_of_le hn
  rw [Nat.add_comm]
  match d with
  | [] => rfl
  | [_] => rfl
  | [_, _] => rfl
  | [_, _, _] => rfl
  | _ :: _ :: _ :: _ :: _ => rfl

/-! ## A descriptor is read -/

/-- **A descriptor reaches the host**: whatever descriptor the host asks for, and however many
    bytes of it, in twenty rounds of passes and transactions it has got these bytes, or all
    that there are, and the function has returned without an error; and from four bytes or
    more it knows how long the descriptor is. -/
theorem descriptor_reaches_host (signature : UInt8 → UInt8) (wValue : UInt16) (d : List UInt8)
    (hd : getDescriptor signature wValue = some d) (wLength : ℕ) (hwanted : wLength ≠ 0)
    (rounds : List (List TransferEvent)) (hattached : ∀ r ∈ rounds, ∀ e ∈ r, e.Attached)
    (hturns : ∀ r ∈ rounds, ∀ side, ∃ e ∈ r, e.side = side) (hmany : 20 ≤ rounds.length) :
    ((transfer wLength).run (.start d wLength) rounds.flatten).write.position =
        .returned .noError ∧
      ((transfer wLength).run (.start d wLength) rounds.flatten).packets.flatten =
        d.take wLength ∧
      (4 ≤ wLength →
        saidLength ((transfer wLength).run (.start d wLength) rounds.flatten).packets.flatten =
          d.length) := by
  obtain ⟨hsaid, -, hlength⟩ := getDescriptor_spec hd
  have henough : 2 * ((d.take wLength).length / controlEndpointSize) + 6 ≤ rounds.length := by
    have htake := List.length_take_le' wLength d
    simp only [controlEndpointSize]
    omega
  obtain ⟨hposition, hgot⟩ := transfer_completes d hwanted hattached hturns henough
  refine ⟨hposition, hgot, fun hfour => ?_⟩
  rw [hgot, saidLength_take d hfour, hsaid]

/-- The first thing a host asks for is the device descriptor. -/
theorem descriptor_reaches_host_device :
    ((transfer 64).run (.start deviceDescriptor 64)
      (List.replicate 20 [.pass .default, .host]).flatten).packets.flatten = deviceDescriptor := by
  have hrounds : ∀ r ∈ List.replicate 20 [TransferEvent.pass .default, .host],
      r = [TransferEvent.pass .default, .host] := fun r hr => (List.mem_replicate.mp hr).2
  have hread := descriptor_reaches_host (fun _ => 0) 0x0100 deviceDescriptor (by decide) 64
    (by decide) (List.replicate 20 [.pass .default, .host])
    (fun r hr e he => by
      rw [hrounds r hr] at he
      rcases List.mem_cons.mp he with rfl | he
      · exact ⟨by decide, by decide⟩
      · rw [List.mem_singleton.mp he]
        trivial)
    (fun r hr side => by
      rw [hrounds r hr]
      cases side
      · exact ⟨_, List.mem_cons_self, rfl⟩
      · exact ⟨.host, List.mem_cons_of_mem _ List.mem_cons_self, rfl⟩)
    (by decide)
  rw [hread.2.1]
  decide

end LoccFirmware.Usb
