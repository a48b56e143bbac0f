import LoccFirmware.Input.Dialling
import LoccFirmware.System.HostStream
import LoccFirmware.System.Reports

/-!
# Dialling a Number

The telephone is plugged in, the firmware starts, and some time later somebody dials a
number.  This file follows the number from the contacts of the dial through the main loop
and the serial link to the host.

At power-up all four statics of `dial_scan` are 0, as if the dial were being turned and the
receiver were down.  The dial at rest then looks like the end of a turn without impulses,
and the first thing the host reads is a digit `0` that nobody has dialled, or an `H` if the
hook switch is open, which the first call returns in the place of the digit.  The lockouts
of both contacts take 255 calls, and from then on every number is read as it is dialled.
-/

namespace LoccFirmware.System

open LoccFirmware.Automata LoccFirmware.Protocol LoccFirmware.Input LoccFirmware.Usb

/-! ## The telephone at rest -/

/-- Nobody dials, and the hook stands still. -/
def AtRest (hook : Bool) (pinc : UInt8) : Prop :=
  dialHigh pinc = true ∧ impulseHigh pinc = false ∧ hangupHigh pinc = hook

/-- The statics of `dial_scan` when `k` calls have passed since the first one. -/
structure Settling (hook : Bool) (k : ℕ) (d : Dial) : Prop where
  impulse : d.stateImpulse.toNat = 0
  dialing : d.stateDialing.toNat = max 1 (0x80 - k)
  hangup : d.stateHangup.toNat = if hook then (if k ≤ 253 then 0xFF - k else 1) else 0
  counter : d.dialCounter = 0

section Rest

variable {hook : Bool} {pinc : UInt8}

/-- Without an impulse the counter stays where it is. -/
theorem countedImpulses_of_low {d : Dial} (himpulse : impulseHigh pinc = false)
    (hcounter : d.dialCounter = 0) : countedImpulses pinc d = 0 := by
  rw [countedImpulses, if_neg, hcounter]
  rintro ⟨-, hhigh⟩
  rw [himpulse] at hhigh
  cases hhigh

/-- The hook goes from one value to the next, and past 2 without a word. -/
theorem hookStep_settling (hook : Bool) (k : ℕ) :
    hookStep (if hook then (if k ≤ 253 then 0xFF - k else 1) else 0) hook =
      (if hook then (if k + 1 ≤ 253 then 0xFF - (k + 1) else 1) else 0, none) := by
  cases hook with
  | false => rfl
  | true =>
    show hookStep (if k ≤ 253 then 0xFF - k else 1) true =
      (if k + 1 ≤ 253 then 0xFF - (k + 1) else 1, none)
    rcases Nat.lt_trichotomy k 253 with hlt | rfl | hgt
    · rw [if_pos (Nat.le_of_lt hlt), if_pos (by omega : k + 1 ≤ 253), hookStep, if_neg (by omega)]
      rfl
    · rfl
    · rw [if_neg (by omega), if_neg (by omega)]
      rfl

/-- One more call: both lockouts run down, and nothing is returned. -/
theorem Settling.step {k : ℕ} {d : Dial} (hd : Settling hook k d) (h : AtRest hook pinc) :
    Settling hook (k + 1) (dialScan pinc d).1 ∧ (dialScan pinc d).2 = 0 := by
  obtain ⟨hdial, himpulse, hhook⟩ := h
  have hdialing := hd.dialing
  have hfires : ¬ FiresDigit pinc d := by
    rintro ⟨hzero, -⟩
    rw [eq_zero_iff_toNat] at hzero
    omega
  refine ⟨⟨?_, ?_, ?_, ?_⟩, ?_⟩
  · rw [dialScan_stateImpulse, hd.impulse, himpulse]
    rfl
  · rw [dialScan_stateDialing, hdialing, hdial]
    by_cases hk : k < 127
    · have hlocked : 1 < max 1 (0x80 - k) := by omega
      rw [debounce_of_locked hlocked]
      show max 1 (0x80 - k) - 1 = _
      omega
    · rw [show max 1 (0x80 - k) = 1 by omega, debounce_one_true]
      show 1 = _
      omega
  · rw [dialScan_stateHangup, hd.hangup, hhook, hookStep_settling]
  · rw [dialScan_dialCounter, if_neg hfires, countedImpulses_of_low himpulse hd.counter]
  · rw [dialScan_returns, hd.hangup, hhook, hookStep_settling, if_neg hfires]

theorem Settling.run {k : ℕ} {d : Dial} (hd : Settling hook k d) {samples : List UInt8}
    (h : ∀ x ∈ samples, AtRest hook x) :
    Settling hook (k + samples.length) (dial.run d samples) ∧
      dial.outputs d samples = List.replicate samples.length 0 := by
  induction samples generalizing d k with
  | nil => exact ⟨hd, rfl⟩
  | cons x samples ih =>
    obtain ⟨hnext, hret⟩ := hd.step (h x List.mem_cons_self)
    obtain ⟨hrun, hout⟩ := ih hnext fun y hy => h y (List.mem_cons_of_mem x hy)
    rw [List.length_cons, List.replicate_succ, Mealy.run_cons, Mealy.outputs_cons]
    refine ⟨?_, congrArg₂ List.cons hret hout⟩
    rw [show k + (samples.length + 1) = k + 1 + samples.length by omega]
    exact hrun

end Rest

/-! ## A number -/

/-- The sample of port D in an event. -/
def DeviceEvent.pind : DeviceEvent → Option UInt8
  | .frame f => some f.pind
  | _ => none

/-- The sample of port C in an event. -/
def DeviceEvent.pinc : DeviceEvent → Option UInt8
  | .frame f => some f.pinc
  | _ => none

end LoccFirmware.System
