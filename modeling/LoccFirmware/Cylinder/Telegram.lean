import LoccFirmware.Cylinder.Port
import LoccFirmware.Coding.Biphase

/-!
# Telegrams to the Cylinder

`sendCylinderTelegram` walks a pointer over an array of `int` and sends the low
eight bits of each element, most significant first, as two half-bits of opposite
level.  `int` has 16 bits on this target, hence `BitVec 16` and an arithmetic shift.

C arrays do not know their length, so the function is modelled over a memory: the
words from the start of the array on, whatever lies behind it.  Every evaluation of
`*telegram` is recorded with the offset it reads.

The outer loop runs `for(j=0; j<=length; j++)`, one time more than the array has
elements.  What the line then carries, and that this is never just the array, is
proved for every array below.
-/

namespace LoccFirmware.Cylinder

open LoccFirmware.Coding

/-! ## The function -/

/-- The locals of `sendCylinderTelegram`: the port it drives, how far the pointer
`telegram` has moved, and the offsets read through it. -/
structure Sending where
  port : Port
  telegram : ℕ
  reads : List ℕ

/-- The body of the inner loop. -/
def sendBit (mem : ℕ → BitVec 16) (i : ℕ) (s : Sending) : Sending :=
  let s := { s with reads := s.reads ++ [s.telegram] }
  if (mem s.telegram).sshiftRight i &&& 1 ≠ 0 then
    -- a 1 is high, then low
    let p := systemDelay10us cylinderTelegramTimingDelay (generateHigh s.port)
    { s with port := systemDelay10us cylinderTelegramTimingDelay (generateLow p) }
  else
    -- a 0 is low, then high
    let p := systemDelay10us cylinderTelegramTimingDelay (generateLow s.port)
    { s with port := systemDelay10us cylinderTelegramTimingDelay (generateHigh p) }

/-- The inner loop, with `i` counting down from one below the argument to 0. -/
def sendBits (mem : ℕ → BitVec 16) : ℕ → Sending → Sending
  | 0, s => s
  | i + 1, s => sendBits mem i (sendBit mem i s)

/-- The outer loop from a given `j` on. -/
def sendElements (mem : ℕ → BitVec 16) (length j : ℕ) (s : Sending) : Sending :=
  if j ≤ length then
    let s := sendBits mem 8 s
    -- `telegram++`
    sendElements mem length (j + 1) { s with telegram := s.telegram + 1 }
  else s
termination_by length + 1 - j

/-- `sendCylinderTelegram`. -/
def sendCylinderTelegram (mem : ℕ → BitVec 16) (length : ℕ) (p : Port) : Sending :=
  let s := sendElements mem length 0 { port := p, telegram := 0, reads := [] }
  { s with port := generateHigh s.port }

/-- Memory that holds an array, followed by other words. -/
def memoryAt (t : List (BitVec 16)) (behind : ℕ → BitVec 16) (i : ℕ) : BitVec 16 :=
  t[i]?.getD (behind (i - t.length))

/-- `openTelegram`. -/
def openTelegram : List (BitVec 16) :=
  [0x02, 0x23, 0x42, 0xb7, 0x00, 0x00, 0x63, 0x00]

/-- `open_locc`, with the words the linker placed behind `openTelegram`. -/
def openLocc (behind : ℕ → BitVec 16) (p : Port) : Sending :=
  sendCylinderTelegram (memoryAt openTelegram behind) 8 p

/-! ## What a stretch of the transmission does -/

/-- One half-bit on the line. -/
def halfBit (powered : Bool) (level : Level) : Held :=
  ⟨level, powered, cylinderTelegramTimingDelay⟩

/-- `q` is what sending `bits` makes of `p`: the half-bits are appended, and apart from
    the data pin both registers are as before. -/
structure Transmits (p : Port) (bits : List Bool) (q : Port) : Prop where
  held : q.held = p.held ++ (encode .high .low bits).map (halfBit p.powered)
  powered : q.powered = p.powered
  portd : q.portd ||| ioMask = p.portd ||| ioMask
  ddrd : q.ddrd &&& ~~~ioMask = p.ddrd &&& ~~~ioMask

theorem Transmits.refl (p : Port) : Transmits p [] p where
  held := by simp
  powered := rfl
  portd := rfl
  ddrd := rfl

theorem Transmits.trans {p q r : Port} {as bs : List Bool} (h : Transmits p as q)
    (h' : Transmits q bs r) : Transmits p (as ++ bs) r where
  held := by rw [h'.held, h.held, h.powered, encode_append, List.map_append, List.append_assoc]
  powered := h'.powered.trans h.powered
  portd := h'.portd.trans h.portd
  ddrd := h'.ddrd.trans h.ddrd

/-- A half-bit pair high, low sends a `1`. -/
theorem highLow_transmits (p : Port) :
    Transmits p [true] (systemDelay10us cylinderTelegramTimingDelay
      (generateLow (systemDelay10us cylinderTelegramTimingDelay (generateHigh p)))) where
  held := by simp [encode, encodeBit, halfBit]
  powered := by simp
  portd := by simp [andNot_or_self_mask, or_or_self_mask]
  ddrd := by simp [or_andNot_self_mask, UInt8.and_assoc]

/-- A half-bit pair low, high sends a `0`. -/
theorem lowHigh_transmits (p : Port) :
    Transmits p [false] (systemDelay10us cylinderTelegramTimingDelay
      (generateHigh (systemDelay10us cylinderTelegramTimingDelay (generateLow p)))) where
  held := by simp [encode, encodeBit, halfBit]
  powered := by simp
  portd := by simp [andNot_or_self_mask, or_or_self_mask]
  ddrd := by simp [or_andNot_self_mask, UInt8.and_assoc]

/-- The test `(*telegram >> i) & 1` reads bit `i`. -/
theorem shifted_and_one_ne_zero_iff (x : BitVec 16) {i : ℕ} (hi : i < 16) :
    x.sshiftRight i &&& 1 ≠ 0 ↔ x.toNat.testBit i = true := by
  have hbit : (x.sshiftRight i &&& 1).getLsbD 0 = x.toNat.testBit i := by
    rw [BitVec.getLsbD_and, BitVec.getLsbD_sshiftRight, BitVec.testBit_toNat]
    simp [hi]
  constructor
  · -- all bits but the lowest are masked out
    intro hne
    by_contra hzero
    apply hne
    apply BitVec.eq_of_getLsbD_eq
    intro j hj
    cases j with
    | zero => rw [hbit]; simpa using hzero
    | succ j => simp
  · intro htrue hzero
    rw [hzero, htrue] at hbit
    simp at hbit

theorem sendBit_transmits (mem : ℕ → BitVec 16) {i : ℕ} (hi : i < 16) (s : Sending) :
    Transmits s.port [(mem s.telegram).toNat.testBit i] (sendBit mem i s).port := by
  have hbranch := shifted_and_one_ne_zero_iff (mem s.telegram) hi
  unfold sendBit
  by_cases hbit : (mem s.telegram).toNat.testBit i = true
  · rw [if_pos (hbranch.mpr hbit), hbit]
    exact highLow_transmits s.port
  · rw [if_neg (fun h => hbit (hbranch.mp h)), Bool.eq_false_iff.mpr hbit]
    exact lowHigh_transmits s.port

theorem sendBit_telegram (mem : ℕ → BitVec 16) (i : ℕ) (s : Sending) :
    (sendBit mem i s).telegram = s.telegram := by
  simp only [sendBit]
  split <;> rfl

theorem sendBit_reads (mem : ℕ → BitVec 16) (i : ℕ) (s : Sending) :
    (sendBit mem i s).reads = s.reads ++ [s.telegram] := by
  simp only [sendBit]
  split <;> rfl

/-! ## One element, all elements -/

/-- The inner loop sends the low bits of the element under the pointer, reads nothing
    else and leaves the pointer where it is. -/
theorem sendBits_spec (mem : ℕ → BitVec 16) {w : ℕ} (hw : w ≤ 16) (s : Sending) :
    Transmits s.port (msbFirst w (mem s.telegram).toNat) (sendBits mem w s).port ∧
      (sendBits mem w s).telegram = s.telegram ∧
      (sendBits mem w s).reads = s.reads ++ List.replicate w s.telegram := by
  induction w generalizing s with
  | zero => exact ⟨Transmits.refl s.port, rfl, by simp [sendBits]⟩
  | succ w ih =>
    obtain ⟨htrans, htel, hreads⟩ := ih (by omega) (sendBit mem w s)
    rw [sendBit_telegram] at htrans htel hreads
    refine ⟨(sendBit_transmits mem (by omega) s).trans htrans, htel, ?_⟩
    rw [sendBits, hreads, sendBit_reads, List.append_assoc, List.singleton_append,
      List.replicate_succ]

/-- The outer loop from `j` on sends the elements from the pointer on, one for each
    value of `j` up to and including `length`. -/
theorem sendElements_spec (mem : ℕ → BitVec 16) (length : ℕ) {m j : ℕ}
    (hm : length + 1 - j = m) (s : Sending) :
    Transmits s.port ((List.range' s.telegram m).flatMap fun k => msbFirst 8 (mem k).toNat)
        (sendElements mem length j s).port ∧
      (sendElements mem length j s).reads =
        s.reads ++ (List.range' s.telegram m).flatMap (List.replicate 8) := by
  induction m generalizing j s with
  | zero =>
    rw [sendElements, if_neg (by omega)]
    exact ⟨Transmits.refl s.port, by simp⟩
  -- one more element is sent, from a pointer one further on
  | succ m ih =>
    rw [sendElements, if_pos (by omega)]
    obtain ⟨hbits, htel, hread⟩ := sendBits_spec mem (by decide : 8 ≤ 16) s
    obtain ⟨htrans, hreads⟩ := ih (j := j + 1) (by omega)
      { sendBits mem 8 s with telegram := (sendBits mem 8 s).telegram + 1 }
    simp only [htel] at htrans hreads ⊢
    rw [List.range'_succ, List.flatMap_cons, List.flatMap_cons]
    refine ⟨hbits.trans htrans, ?_⟩
    rw [hreads, hread, List.append_assoc]

/-- **What `sendCylinderTelegram` does**: it sends the elements at the offsets
    `0, …, length`, reads exactly these, and leaves the line high with both registers
    otherwise as they were. -/
theorem sendCylinderTelegram_spec (mem : ℕ → BitVec 16) (length : ℕ) (p : Port) :
    (sendCylinderTelegram mem length p).port.held = p.held ++
        (encode .high .low ((List.range' 0 (length + 1)).flatMap fun k =>
          msbFirst 8 (mem k).toNat)).map (halfBit p.powered) ∧
      (sendCylinderTelegram mem length p).reads =
        (List.range' 0 (length + 1)).flatMap (List.replicate 8) ∧
      (sendCylinderTelegram mem length p).port.portd = p.portd ||| ioMask ∧
      (sendCylinderTelegram mem length p).port.ddrd = p.ddrd &&& ~~~ioMask ∧
      (sendCylinderTelegram mem length p).port.level = .high := by
  obtain ⟨htrans, hreads⟩ := sendElements_spec mem length (j := 0) rfl
    { port := p, telegram := 0, reads := [] }
  exact ⟨htrans.held, hreads, htrans.portd, htrans.ddrd, generateHigh_level _⟩

/-- The levels on the line during the transmission, half-bit by half-bit. -/
theorem sendCylinderTelegram_levels (mem : ℕ → BitVec 16) (length : ℕ) (p : Port) :
    ((sendCylinderTelegram mem length p).port.held.drop p.held.length).map Held.level =
      encode .high .low
        (((List.range' 0 (length + 1)).map fun k => (mem k).toNat).flatMap (msbFirst 8)) := by
  obtain ⟨hheld, -⟩ := sendCylinderTelegram_spec mem length p
  have hlevel : Held.level ∘ halfBit p.powered = id := rfl
  rw [hheld, List.drop_left, List.map_map, hlevel, List.map_id, List.flatMap_map]

/-! ## The round trip that is missed -/

/-- What the receiver should make of a telegram: sent from an array and its length, only
    the array is read, every half-bit lasts one delay, the receiver reads the array's
    elements modulo 256 and nothing more, and the line is left idle. -/
structure TelegramRoundTrip (t : List (BitVec 16)) (behind : ℕ → BitVec 16) (p : Port) :
    Prop where
  inBounds : ∀ i ∈ (sendCylinderTelegram (memoryAt t behind) t.length p).reads, i < t.length
  timing : ∀ h ∈ (sendCylinderTelegram (memoryAt t behind) t.length p).port.held.drop
    p.held.length, h.delay = cylinderTelegramTimingDelay
  received : receive .high .low
      (((sendCylinderTelegram (memoryAt t behind) t.length p).port.held.drop
        p.held.length).map Held.level) = some (t.map fun x => x.toNat % 256)
  idle : (sendCylinderTelegram (memoryAt t behind) t.length p).port.level = .high

theorem range'_map_memoryAt (t : List (BitVec 16)) (behind : ℕ → BitVec 16) :
    (List.range' 0 (t.length + 1)).map (memoryAt t behind) = t ++ [behind 0] := by
  apply List.ext_getElem
  · simp
  · intro i hi _
    simp only [List.length_map, List.length_range'] at hi
    by_cases hlt : i < t.length
    · simp [memoryAt, hlt]
    · -- the last offset is the one behind the array
      have heq : i = t.length := by omega
      subst heq
      simp [memoryAt]

/-- The receiver reads the array and one more octet: the low byte of the word behind it. -/
theorem received_one_too_many (t : List (BitVec 16)) (behind : ℕ → BitVec 16) (p : Port) :
    receive .high .low
      (((sendCylinderTelegram (memoryAt t behind) t.length p).port.held.drop
        p.held.length).map Held.level) =
      some ((t ++ [behind 0]).map fun x => x.toNat % 256) := by
  rw [sendCylinderTelegram_levels, receive_encode_octets (by decide), List.map_map,
    ← range'_map_memoryAt t behind, List.map_map]
  rfl

/-- **The round trip fails for every array**: the loop bound `j<=length` makes the
    function read and send the word behind the array, whatever the array is. -/
theorem not_telegramRoundTrip (t : List (BitVec 16)) (behind : ℕ → BitVec 16) (p : Port) :
    ¬ TelegramRoundTrip t behind p := by
  intro h
  obtain ⟨-, hreads, -⟩ := sendCylinderTelegram_spec (memoryAt t behind) t.length p
  -- the word at offset `t.length` is read, in the last round
  have hmem : t.length ∈ (sendCylinderTelegram (memoryAt t behind) t.length p).reads := by
    rw [hreads, List.mem_flatMap]
    exact ⟨t.length, by simp, by simp⟩
  exact absurd (h.inBounds t.length hmem) (Nat.lt_irrefl _)

/-- The call in `open_locc`: nine octets leave the pin, of an array of eight. -/
theorem not_telegramRoundTrip_openTelegram :
    ¬ TelegramRoundTrip openTelegram (fun _ => 0) ⟨0x7F, 0x50, []⟩ := by
  intro h
  have hread := h.received
  rw [received_one_too_many] at hread
  exact absurd hread (by decide)

end LoccFirmware.Cylinder
