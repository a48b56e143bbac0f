import LoccFirmware.Automata.Debouncer

/-!
# The Rotary Dial and the Hook Switch

`dial_scan` (`dial.c`) is called once per frame.  It samples three contacts of a
telephone on port C and returns one character: the digit just dialled, `H` or `h`
for the hook, or 0.  Its four `static` variables are the fields of `Dial`.

The body is three blocks in a row, one for each contact, that share `dial_counter`
and the variable `rv` that is returned.  `PINC` is read once in each block; every
block tests another bit, so one value stands for the three reads.
-/

namespace LoccFirmware.Input

open LoccFirmware.Automata

/-! ## The scan -/

/-- The statics of `dial_scan`. -/
structure Dial where
  dialCounter : UInt8
  stateImpulse : UInt8
  stateDialing : UInt8
  stateHangup : UInt8
  deriving DecidableEq, Repr

/-- The statics after reset. -/
def Dial.reset : Dial where
  dialCounter := 0
  stateImpulse := 0
  stateDialing := 0
  stateHangup := 0

/-- `IMPULSE_INPUT & (1<<IMPULSE_PIN)`. -/
def impulseHigh (pinc : UInt8) : Bool :=
  pinc &&& (1 : UInt8) <<< 6 ≠ 0

/-- `DIAL_INPUT & (1<<DIAL_PIN)`. -/
def dialHigh (pinc : UInt8) : Bool :=
  pinc &&& (1 : UInt8) <<< 4 ≠ 0

/-- `HANGUP_INPUT & (1<<HANGUP_PIN)`. -/
def hangupHigh (pinc : UInt8) : Bool :=
  pinc &&& (1 : UInt8) <<< 5 ≠ 0

/-- The block for the impulse contact. -/
def scanImpulse (pinc : UInt8) (d : Dial) : Dial :=
  if d.stateImpulse ≤ 1 then
    if impulseHigh pinc then
      if d.stateImpulse = 0 then
        -- a new impulse: start the lockout and count it
        { d with stateImpulse := 0x40, dialCounter := d.dialCounter + 1 }
      else d
    else { d with stateImpulse := 0 }
  else { d with stateImpulse := d.stateImpulse - 1 }

/-- The block for the dial contact, with the value of `rv` it leaves. -/
def scanDialing (pinc : UInt8) (d : Dial) (rv : UInt8) : Dial × UInt8 :=
  if d.stateDialing ≤ 1 then
    if dialHigh pinc then
      if d.stateDialing = 0 then
        -- ten impulses and more are the digit 0
        let d := { d with stateDialing := 0x80 }
        let d := if d.dialCounter ≥ 10 then { d with dialCounter := 0 } else d
        ({ d with dialCounter := 0 }, '0'.toUInt8 + d.dialCounter)
      else (d, rv)
    else ({ d with stateDialing := 0 }, rv)
  else ({ d with stateDialing := d.stateDialing - 1 }, rv)

/-- The block for the hook switch, with the value of `rv` it leaves. -/
def scanHangup (pinc : UInt8) (d : Dial) (rv : UInt8) : Dial × UInt8 :=
  if d.stateHangup ≤ 2 then
    if hangupHigh pinc then
      -- also in state 2, where the level is adopted without a report
      if d.stateHangup = 0 then ({ d with stateHangup := 0xFF }, 'H'.toUInt8)
      else ({ d with stateHangup := 1 }, rv)
    else
      if d.stateHangup = 1 then ({ d with stateHangup := 0xFF }, 'h'.toUInt8)
      else ({ d with stateHangup := 0 }, rv)
  else ({ d with stateHangup := d.stateHangup - 1 }, rv)

/-- `dial_scan`. -/
def dialScan (pinc : UInt8) (d : Dial) : Dial × UInt8 :=
  let d := scanImpulse pinc d
  let (d, rv) := scanDialing pinc d 0
  scanHangup pinc d rv

/-- The dial as a machine from samples of port C to returned characters. -/
def dial : Mealy Dial UInt8 UInt8 where
  step d pinc := dialScan pinc d

/-! ## The blocks as debouncers -/

section Debouncers

variable (x : UInt8)

theorem le_one_iff_toNat : x ≤ 1 ↔ x.toNat ≤ 1 := UInt8.le_iff_toNat_le

theorem eq_zero_iff_toNat : x = 0 ↔ x.toNat = 0 := by
  rw [← UInt8.toNat_inj]
  rfl

theorem toNat_sub_one {x : UInt8} (hx : x ≠ 0) : (x - 1).toNat = x.toNat - 1 := by
  have hpos : 1 ≤ x := by
    rw [UInt8.le_iff_toNat_le]
    rw [Ne, eq_zero_iff_toNat] at hx
    exact Nat.one_le_iff_ne_zero.mpr hx
  rw [UInt8.toNat_sub_of_le x 1 hpos]
  rfl

/-- The nested tests by which `dial.c` and `keypad.c` debounce a contact, on an 8-bit
    cell, compute the state of a debouncer. -/
theorem debounced_cell_toNat (lockout x : UInt8) (pressed : Bool) :
    (if x ≤ 1 then if pressed then if x = 0 then lockout else x else 0 else x - 1).toNat =
      (debounce lockout.toNat x.toNat pressed).1 := by
  unfold debounce
  simp only [le_one_iff_toNat, eq_zero_iff_toNat]
  split_ifs with hle hp hzero
  · rfl
  · rfl
  · rfl
  · exact toNat_sub_one (by rw [Ne, eq_zero_iff_toNat]; omega)

end Debouncers

/-- The hook block on numbers: the next state, and the level reported, if any.  Above 2
    it waits; at 2 it adopts the level of the pin without a report. -/
def hookStep (s : ℕ) (high : Bool) : ℕ × Option Bool :=
  if s ≤ 2 then
    if high then
      if s = 0 then (255, some true) else (1, none)
    else
      if s = 1 then (255, some false) else (0, none)
  else (s - 1, none)

/-! ## What one call does

Each block writes its own state and no other, so the four statics after a call and
the returned character are given by one equation each. -/

section Calls

variable (pinc : UInt8) (d : Dial) (rv : UInt8)

/-- The call executes `dial_counter++`. -/
def CountsImpulse : Prop :=
  d.stateImpulse = 0 ∧ impulseHigh pinc = true

/-- The call takes the digit branch. -/
def FiresDigit : Prop :=
  d.stateDialing = 0 ∧ dialHigh pinc = true

instance : Decidable (CountsImpulse pinc d) := inferInstanceAs (Decidable (_ ∧ _))

instance : Decidable (FiresDigit pinc d) := inferInstanceAs (Decidable (_ ∧ _))

/-- `dial_counter` as the digit branch finds it. -/
def countedImpulses : UInt8 :=
  if CountsImpulse pinc d then d.dialCounter + 1 else d.dialCounter

/-- The character the digit branch computes from a count. -/
def digitChar (count : UInt8) : UInt8 :=
  '0'.toUInt8 + if count ≥ 10 then 0 else count

/-- A count is at most 9 when it becomes a digit. -/
theorem digitChar_range (count : UInt8) :
    '0'.toUInt8 ≤ digitChar count ∧ digitChar count ≤ '9'.toUInt8 := by
  have h0 : '0'.toUInt8 = 48 := by decide
  have h9 : '9'.toUInt8 = 57 := by decide
  unfold digitChar
  rw [h0, h9]
  split
  · decide
  · constructor <;> grind

theorem scanImpulse_eq :
    scanImpulse pinc d =
      { d with
        stateImpulse :=
          if d.stateImpulse ≤ 1 then
            if impulseHigh pinc then if d.stateImpulse = 0 then 0x40 else d.stateImpulse else 0
          else d.stateImpulse - 1
        dialCounter := countedImpulses pinc d } := by
  unfold scanImpulse countedImpulses CountsImpulse
  by_cases hle : d.stateImpulse ≤ 1
  · by_cases hhigh : impulseHigh pinc = true <;> by_cases hzero : d.stateImpulse = 0 <;>
      simp [hle, hhigh, hzero]
  · -- in the lockout nothing is counted
    have hzero : d.stateImpulse ≠ 0 := by rintro h; exact hle (by rw [h]; decide)
    simp [hle, hzero]

theorem scanDialing_eq :
    scanDialing pinc d rv =
      ({ d with
          stateDialing :=
            if d.stateDialing ≤ 1 then
              if dialHigh pinc then if d.stateDialing = 0 then 0x80 else d.stateDialing else 0
            else d.stateDialing - 1
          dialCounter := if FiresDigit pinc d then 0 else d.dialCounter },
        if FiresDigit pinc d then digitChar d.dialCounter else rv) := by
  unfold scanDialing FiresDigit digitChar
  by_cases hle : d.stateDialing ≤ 1
  · by_cases hhigh : dialHigh pinc = true <;> by_cases hzero : d.stateDialing = 0 <;>
      simp [hle, hhigh, hzero]
    by_cases hten : d.dialCounter ≥ 10 <;> simp [hten]
  · -- in the lockout no digit is made
    have hzero : d.stateDialing ≠ 0 := by rintro h; exact hle (by rw [h]; decide)
    simp [hle, hzero]

theorem scanHangup_toNat :
    (scanHangup pinc d rv).1.stateHangup.toNat =
        (hookStep d.stateHangup.toNat (hangupHigh pinc)).1 ∧
      (scanHangup pinc d rv).2 =
        match (hookStep d.stateHangup.toNat (hangupHigh pinc)).2 with
        | some true => 'H'.toUInt8
        | some false => 'h'.toUInt8
        | none => rv := by
  have hle : d.stateHangup ≤ 2 ↔ d.stateHangup.toNat ≤ 2 := UInt8.le_iff_toNat_le
  have hone : d.stateHangup = 1 ↔ d.stateHangup.toNat = 1 := by
    rw [← UInt8.toNat_inj]
    rfl
  unfold scanHangup hookStep
  simp only [hle, hone, eq_zero_iff_toNat]
  split_ifs with h2
  -- the four ends of the nested tests, and then the wait
  · exact ⟨rfl, rfl⟩
  · exact ⟨rfl, rfl⟩
  · exact ⟨rfl, rfl⟩
  · exact ⟨rfl, rfl⟩
  · exact ⟨toNat_sub_one (by rw [Ne, eq_zero_iff_toNat]; omega), rfl⟩

theorem scanHangup_frame :
    (scanHangup pinc d rv).1.stateImpulse = d.stateImpulse ∧
      (scanHangup pinc d rv).1.stateDialing = d.stateDialing ∧
      (scanHangup pinc d rv).1.dialCounter = d.dialCounter := by
  unfold scanHangup
  split_ifs <;> exact ⟨rfl, rfl, rfl⟩

theorem dialScan_eq :
    dialScan pinc d =
      scanHangup pinc (scanDialing pinc (scanImpulse pinc d) 0).1
        (scanDialing pinc (scanImpulse pinc d) 0).2 := rfl

theorem dialScan_stateImpulse :
    (dialScan pinc d).1.stateImpulse.toNat =
      (debounce 0x40 d.stateImpulse.toNat (impulseHigh pinc)).1 := by
  rw [dialScan_eq, (scanHangup_frame _ _ _).1, scanDialing_eq, scanImpulse_eq]
  exact debounced_cell_toNat 0x40 d.stateImpulse (impulseHigh pinc)

theorem dialScan_stateDialing :
    (dialScan pinc d).1.stateDialing.toNat =
      (debounce 0x80 d.stateDialing.toNat (dialHigh pinc)).1 := by
  rw [dialScan_eq, (scanHangup_frame _ _ _).2.1, scanDialing_eq, scanImpulse_eq]
  exact debounced_cell_toNat 0x80 d.stateDialing (dialHigh pinc)

theorem dialScan_stateHangup :
    (dialScan pinc d).1.stateHangup.toNat =
      (hookStep d.stateHangup.toNat (hangupHigh pinc)).1 := by
  rw [dialScan_eq, (scanHangup_toNat _ _ _).1, scanDialing_eq, scanImpulse_eq]

theorem dialScan_dialCounter :
    (dialScan pinc d).1.dialCounter =
      if FiresDigit pinc d then 0 else countedImpulses pinc d := by
  rw [dialScan_eq, (scanHangup_frame _ _ _).2.2, scanDialing_eq, scanImpulse_eq]
  rfl

/-- The hook block comes last, so a hook report replaces a digit of the same call. -/
theorem dialScan_returns :
    (dialScan pinc d).2 =
      match (hookStep d.stateHangup.toNat (hangupHigh pinc)).2 with
      | some true => 'H'.toUInt8
      | some false => 'h'.toUInt8
      | none => if FiresDigit pinc d then digitChar (countedImpulses pinc d) else 0 := by
  rw [dialScan_eq, (scanHangup_toNat _ _ _).2, scanDialing_eq, scanImpulse_eq]
  rfl

end Calls

end LoccFirmware.Input
