import LoccFirmware.Protocol.CommandCodec
import LoccFirmware.System.Peripherals

/-!
# Rows Driven and Rows Scanned

A frame scans the keypad first and latches the shift register last.  So a column is
sampled while the row is driven that the frame before has latched, and the scan must
take the sample for that row.  `row` and `matrix_selector` are advanced separately, and
the byte latched is shared with the LEDs.
-/

namespace LoccFirmware.System

open LoccFirmware.Automata LoccFirmware.Protocol LoccFirmware.Input

/-! ## The latched byte -/

/-- The outputs `4` to `7` of the shift register drive the rows, low for driven. -/
def drivesRow (latched : UInt8) (q : ℕ) : Bool :=
  latched &&& (1 : UInt8) <<< UInt8.ofNat (4 + q) = 0

/-- LEDs in the three low bits and the selector of row `r` make a byte that drives `r`
    alone and shows the LEDs. -/
theorem latch_spec {leds : UInt8} (hleds : leds < 8) {r : ℕ} (hr : r < 4) :
    let latched := leds ||| (0xF0 &&& ~~~((0x10 : UInt8) <<< UInt8.ofNat r))
    (∀ q < 4, drivesRow latched q = true ↔ q = r) ∧ latched &&& 0x0F = leds := by
  have table : ∀ n < 8, ∀ r < 4,
      let latched := UInt8.ofNat n ||| (0xF0 &&& ~~~((0x10 : UInt8) <<< UInt8.ofNat r))
      (∀ q < 4, drivesRow latched q = true ↔ q = r) ∧ latched &&& 0x0F = UInt8.ofNat n := by
    decide
  have h := table leds.toNat (UInt8.lt_iff_toNat_lt.mp hleds) r hr
  rwa [UInt8.ofNat_toNat] at h

/-! ## Frames -/

section Frames

variable (pre : List Event) (f : FrameInput)

/-- The byte that frame `f`, run after `pre`, latches at its end. -/
def latched : UInt8 :=
  (loop f (firmware.run setup pre)).2.spdr

/-- The machine after the frame `f` and `n` timer interrupts, when the next frame begins. -/
def awaiting (n : ℕ) : Machine :=
  firmware.run setup (pre ++ .frame f :: List.replicate n .tick)

theorem run_ledStates_lt (events : List Event) :
    (firmware.run setup events).parser.ledStates < 8 := by
  rw [parser_run]
  exact parse_ledStates_lt _

/-- Timer interrupts move nothing but the lock's countdown. -/
theorem awaiting_parts (n : ℕ) :
    (awaiting pre f n).keypad = (loop f (firmware.run setup pre)).1.keypad ∧
      (awaiting pre f n).parser = (loop f (firmware.run setup pre)).1.parser := by
  have hticks : ∀ n m, (firmware.run m (List.replicate n .tick)).keypad = m.keypad ∧
      (firmware.run m (List.replicate n .tick)).parser = m.parser := by
    intro n
    induction n with
    | zero => exact fun m => ⟨rfl, rfl⟩
    | succ n ih => exact fun m => ih { m with locc := Lock.timerOverflow m.locc }
  unfold awaiting
  rw [Mealy.run_append]
  exact hticks n (loop f (firmware.run setup pre)).1

end Frames

/-- **Keys are attributed to the row that is driven.**  Whatever came before, a frame
    `f` latches a byte that drives exactly the row the next frame scans and shows the
    LEDs.  The next frame `g` debounces the columns it samples into the cells of that
    row and of no other, and returns the character of a key of that row or none.  No
    scan reads or writes outside of its arrays. -/
theorem keys_attributed_to_driven_row (pre : List Event) (f : FrameInput) (n : ℕ)
    (g : FrameInput) :
    (∃ r < 4, (awaiting pre f n).keypad.row.toNat = r ∧
      (∀ q < 4, drivesRow (latched pre f) q = true ↔ q = r) ∧
      (∀ r' i, i < 4 → (loop g (awaiting pre f n)).1.keypad.debouncing r' i =
        if r' = r then
          debouncedCell ((awaiting pre f n).keypad.debouncing r i) (keyPressed g.pind i)
        else (awaiting pre f n).keypad.debouncing r' i) ∧
      MergedReport r 4
        (fun i => i < 4 ∧ (awaiting pre f n).keypad.debouncing r i = 0 ∧
          keyPressed g.pind i = true) 0
        (keypadScan g.pind (awaiting pre f n).keypad).2) ∧
    latched pre f &&& 0x0F = (awaiting pre f n).parser.ledStates ∧
    (awaiting pre f n).parser.ledStates < 8 ∧
    (firmware.run setup pre).keypad.row.toNat < 4 ∧
    ∀ i < 4, (firmware.run setup pre).keypad.row.toNat * 4 + i < lookup.length := by
  obtain ⟨r₀, hr₀⟩ := keypad_run_atRow pre
  obtain ⟨r, hr⟩ : ∃ r, (awaiting pre f n).keypad.AtRow r := keypad_run_atRow _
  have hleds : (awaiting pre f n).parser.ledStates < 8 := run_ledStates_lt _
  -- the byte is made from the selector and the LEDs the next frame will find
  have hbyte : latched pre f =
      (awaiting pre f n).parser.ledStates ||| (0xF0 &&& ~~~((0x10 : UInt8) <<< UInt8.ofNat r)) := by
    rw [latched, loop_spdr, ← (awaiting_parts pre f n).1, ← (awaiting_parts pre f n).2,
      hr.selector]
  obtain ⟨hdriven, hshown⟩ := latch_spec hleds hr.lt
  rw [← hbyte] at hdriven hshown
  obtain ⟨hcells, hreport⟩ := keypadScan_spec hr g.pind
  refine ⟨⟨r, hr.lt, hr.toNat, hdriven, fun r' i hi => ?_, hreport⟩, hshown, hleds, ?_, ?_⟩
  · rw [keypad_loop]
    exact hcells r' i hi
  · rw [hr₀.toNat]
    exact hr₀.lt
  · intro i hi
    have hlt : r₀ < 4 := hr₀.lt
    have hlen : lookup.length = 16 := rfl
    rw [hr₀.toNat, hlen]
    omega

end LoccFirmware.System
