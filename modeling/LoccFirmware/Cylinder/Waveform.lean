import LoccFirmware.Cylinder.Telegram
import LoccFirmware.Coding.SelfClocking

/-!
# The Waveform of a Telegram

The cylinder has a data line and no clock line.  It can follow a telegram because
`sendCylinderTelegram` emits a biphase code: seen as levels, half-bit by half-bit, every
telegram has a change in the middle of each bit and no long rests, whatever the elements
are and however many there are.

The function sends the words at the offsets `0, …, length`.  Everything below is about
these words, the one behind the array included.
-/

namespace LoccFirmware.Cylinder

open LoccFirmware.Coding

/-- The levels of the data line during `sendCylinderTelegram`, half-bit by half-bit. -/
def waveform (mem : ℕ → BitVec 16) (length : ℕ) (p : Port) : List Level :=
  ((sendCylinderTelegram mem length p).port.held.drop p.held.length).map Held.level

/-- The elements that `sendCylinderTelegram` transmits. -/
def transmitted (mem : ℕ → BitVec 16) (length : ℕ) : List ℕ :=
  (List.range' 0 (length + 1)).map fun k => (mem k).toNat

theorem waveform_eq (mem : ℕ → BitVec 16) (length : ℕ) (p : Port) :
    waveform mem length p = encode .high .low ((transmitted mem length).flatMap (msbFirst 8)) :=
  sendCylinderTelegram_levels mem length p

theorem transmitted_bits_length (mem : ℕ → BitVec 16) (length : ℕ) :
    ((transmitted mem length).flatMap (msbFirst 8)).length = 8 * (length + 1) := by
  rw [flatMap_msbFirst_length, transmitted, List.length_map, List.length_range']

/-- Two transmissions read the same modulo 256 when they are equally long and agree
    element by element. -/
theorem transmitted_mod_eq_iff (mem mem' : ℕ → BitVec 16) (length length' : ℕ) :
    (transmitted mem length).map (· % 256) = (transmitted mem' length').map (· % 256) ↔
      length = length' ∧ ∀ j ≤ length, (mem j).toNat % 256 = (mem' j).toNat % 256 := by
  constructor
  · intro heq
    have hlen : length = length' := by simpa [transmitted] using congrArg List.length heq
    subst hlen
    refine ⟨rfl, fun j hj => ?_⟩
    have hj' : j < length + 1 := by omega
    simpa [transmitted, hj'] using congrArg (·[j]?) heq
  · rintro ⟨rfl, hagree⟩
    rw [transmitted, transmitted, List.map_map, List.map_map]
    apply List.map_congr_left
    intro j hj
    exact hagree j (by simpa [List.mem_range'_1, Nat.lt_succ_iff] using hj)

/-- The waveform determines how many elements were sent and the low byte of each, and
    nothing more. -/
theorem waveform_eq_iff (mem mem' : ℕ → BitVec 16) (length length' : ℕ) (p p' : Port) :
    waveform mem length p = waveform mem' length' p' ↔
      length = length' ∧ ∀ j ≤ length, (mem j).toNat % 256 = (mem' j).toNat % 256 := by
  rw [waveform_eq, waveform_eq, encode_octets_eq_iff (by decide), transmitted_mod_eq_iff]

/-- Every half-bit lasts one delay. -/
theorem sendCylinderTelegram_delay (mem : ℕ → BitVec 16) (length : ℕ) (p : Port) :
    ∀ h ∈ (sendCylinderTelegram mem length p).port.held.drop p.held.length,
      h.delay = cylinderTelegramTimingDelay := by
  obtain ⟨hheld, -⟩ := sendCylinderTelegram_spec mem length p
  rw [hheld, List.drop_left]
  intro h hh
  obtain ⟨level, -, rfl⟩ := List.mem_map.mp hh
  rfl

/-- **The line code is self-clocking**: for every sequence of elements, the half-bits all
    last one delay, change in the middle of every bit, are balanced and never rest for more
    than two, and two sequences of one length give one waveform exactly when they agree
    modulo 256. -/
theorem sendCylinderTelegram_selfClocking (mem : ℕ → BitVec 16) (length : ℕ) (p : Port) :
    (∀ h ∈ (sendCylinderTelegram mem length p).port.held.drop p.held.length,
        h.delay = cylinderTelegramTimingDelay) ∧
      SelfClocking .high .low (8 * (length + 1)) (waveform mem length p) ∧
      ∀ (mem' : ℕ → BitVec 16) (p' : Port),
        waveform mem length p = waveform mem' length p' ↔
          ∀ j ≤ length, (mem j).toNat % 256 = (mem' j).toNat % 256 := by
  refine ⟨sendCylinderTelegram_delay mem length p, ?_, ?_⟩
  · rw [waveform_eq, ← transmitted_bits_length mem length]
    exact encode_selfClocking (by decide) _
  · intro mem' p'
    rw [waveform_eq_iff]
    exact and_iff_right rfl

end LoccFirmware.Cylinder
