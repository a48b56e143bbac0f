import LoccFirmware.Input.HookSwitch

/-!
# Rotary Dialling

A digit on a rotary dial is a train of pulses on the impulse contact while the dial
contact is low, one pulse for `1` up to ten for `0`, and then a rest with the dial
contact high.  Both contacts bounce.  This file says which sample sequences count as
dialling a digit (`DigitPlay`: any pulse widths, any gaps, any bounce within the two
lockouts) and proves that `dial_scan` reads every list of digits back.

The two debouncers run side by side, so a stretch of samples without a digit or hook
event is described by each contact alone (`Reading.segment`); what ties them together
is `dial_counter`, which such a stretch raises by the number of impulses it reports.
-/

namespace LoccFirmware.Input

open LoccFirmware.Automata

/-! ## Dialling -/

/-- One pulse on the impulse contact: high at first, then anything for 63 samples, then
any number of high and one or more low samples. -/
structure Pulse (hook : Bool) where
  first : UInt8
  bounce : List UInt8
  high : List UInt8
  low : List UInt8
  first_high : impulseHigh first = true
  bounce_length : bounce.length = 63
  high_high : ∀ x ∈ high, impulseHigh x = true
  low_nonempty : low ≠ []
  low_low : ∀ x ∈ low, impulseHigh x = false
  /-- The other contacts stand still. -/
  steady : ∀ x ∈ first :: (bounce ++ high ++ low), dialHigh x = false ∧ hangupHigh x = hook

/-- The samples of a pulse, in order. -/
def Pulse.samples {hook : Bool} (p : Pulse hook) : List UInt8 :=
  p.first :: (p.bounce ++ p.high ++ p.low)

/-- The number of pulses of a digit. -/
def pulseCount (digit : Fin 10) : ℕ :=
  if digit = 0 then 10 else digit

/-- One dialled digit: with the dial contact low, some quiet samples and the pulses; then
the dial contact goes high, may chatter for 127 samples, and stays high. -/
structure DigitPlay (hook : Bool) where
  digit : Fin 10
  lead : List UInt8
  pulses : List (Pulse hook)
  release : UInt8
  chatter : List UInt8
  rest : List UInt8
  lead_quiet : ∀ x ∈ lead,
    impulseHigh x = false ∧ dialHigh x = false ∧ hangupHigh x = hook
  pulses_length : pulses.length = pulseCount digit
  release_high : dialHigh release = true
  chatter_length : chatter.length = 127
  rest_high : ∀ x ∈ rest, dialHigh x = true
  /-- The other contacts stand still. -/
  steady : ∀ x ∈ release :: (chatter ++ rest), impulseHigh x = false ∧ hangupHigh x = hook

/-- The samples while the dial turns. -/
def DigitPlay.turning {hook : Bool} (p : DigitPlay hook) : List UInt8 :=
  p.lead ++ p.pulses.flatMap Pulse.samples

/-- The samples of a dialled digit, in order. -/
def DigitPlay.samples {hook : Bool} (p : DigitPlay hook) : List UInt8 :=
  p.turning ++ p.release :: (p.chatter ++ p.rest)

/-- The statics of `dial_scan` at rest, with the hook settled on a level. -/
def restState (hook : Bool) : Dial where
  dialCounter := 0
  stateImpulse := 0
  stateDialing := 1
  stateHangup := if hook then 1 else 0

/-! ## Stretches without an event -/

/-- The statics of `dial_scan` as numbers, with the hook settled on a level. -/
structure Reading (hook : Bool) (impulse dialing count : ℕ) (d : Dial) : Prop where
  impulse : d.stateImpulse.toNat = impulse
  dialing : d.stateDialing.toNat = dialing
  hangup : d.stateHangup.toNat = if hook then 1 else 0
  counter : d.dialCounter = UInt8.ofNat count

theorem Reading.eq_restState {hook : Bool} {d : Dial} (h : Reading hook 0 1 0 d) :
    d = restState hook := by
  obtain ⟨counter, impulse, dialing, hangup⟩ := d
  obtain ⟨himp, hdial, hhook, hcount⟩ := h
  simp only at himp hdial hhook hcount
  have himp' : impulse = 0 := UInt8.toNat_inj.mp himp
  have hdial' : dialing = 1 := UInt8.toNat_inj.mp hdial
  have hhook' : hangup = if hook then 1 else 0 := by
    apply UInt8.toNat_inj.mp
    rw [hhook]
    cases hook <;> rfl
  rw [restState, himp', hdial', hhook', hcount]
  rfl

theorem reading_restState (hook : Bool) : Reading hook 0 1 0 (restState hook) where
  impulse := rfl
  dialing := rfl
  hangup := by cases hook <;> rfl
  counter := rfl

/-- A hook that stands still where it is settled is left alone. -/
theorem hookStep_steady (hook : Bool) :
    hookStep (if hook then 1 else 0) hook = (if hook then 1 else 0, none) := by
  cases hook <;> rfl

theorem countsImpulse_iff (pinc : UInt8) (d : Dial) :
    CountsImpulse pinc d ↔ (debounce 0x40 d.stateImpulse.toNat (impulseHigh pinc)).2 = true := by
  rw [debounce_reports_iff, CountsImpulse, eq_zero_iff_toNat]

theorem firesDigit_iff (pinc : UInt8) (d : Dial) :
    FiresDigit pinc d ↔ (debounce 0x80 d.stateDialing.toNat (dialHigh pinc)).2 = true := by
  rw [debounce_reports_iff, FiresDigit, eq_zero_iff_toNat]

/-- `dial_counter` as the digit branch finds it, from its value as a number. -/
theorem Reading.countedImpulses {hook : Bool} {i s c : ℕ} {d : Dial} (h : Reading hook i s c d)
    (pinc : UInt8) :
    countedImpulses pinc d =
      UInt8.ofNat (c + (debounce 0x40 i (impulseHigh pinc)).2.toNat) := by
  have hcounts := countsImpulse_iff pinc d
  rw [h.impulse] at hcounts
  unfold Input.countedImpulses
  cases hrep : (debounce 0x40 i (impulseHigh pinc)).2 with
  | true =>
    rw [if_pos (hcounts.mpr hrep), h.counter, Bool.toNat_true, UInt8.ofNat_add]
    rfl
  | false =>
    rw [if_neg (by rw [hcounts, hrep]; simp), h.counter, Bool.toNat_false, Nat.add_zero]

/-- One call without a digit event, the hook standing still. -/
theorem Reading.step {hook : Bool} {i s c : ℕ} {d : Dial} (h : Reading hook i s c d)
    {pinc : UInt8} (hhook : hangupHigh pinc = hook)
    (hquiet : (debounce 0x80 s (dialHigh pinc)).2 = false) :
    Reading hook (debounce 0x40 i (impulseHigh pinc)).1 (debounce 0x80 s (dialHigh pinc)).1
        (c + (debounce 0x40 i (impulseHigh pinc)).2.toNat) (dialScan pinc d).1 ∧
      (dialScan pinc d).2 = 0 := by
  -- the dial contact reports nothing, so the digit branch is not taken
  have hfires : ¬ FiresDigit pinc d := by
    rw [firesDigit_iff, h.dialing, hquiet]
    simp
  refine ⟨⟨?_, ?_, ?_, ?_⟩, ?_⟩
  · rw [dialScan_stateImpulse, h.impulse]
  · rw [dialScan_stateDialing, h.dialing]
  · rw [dialScan_stateHangup, h.hangup, hhook, hookStep_steady]
  · rw [dialScan_dialCounter, if_neg hfires, h.countedImpulses]
  · rw [dialScan_returns, h.hangup, hhook, hookStep_steady, if_neg hfires]

/-- **A stretch without an event**: as long as the dial contact reports nothing and the
    hook stands still, each contact is read as if it were alone, the counter rises by
    the impulses reported, and every call returns 0. -/
theorem Reading.segment {hook : Bool} {i s c : ℕ} {d : Dial} (h : Reading hook i s c d)
    {samples : List UInt8} (hhook : ∀ x ∈ samples, hangupHigh x = hook)
    (hquiet : (debouncer 0x80).outputs s (samples.map dialHigh) =
      List.replicate samples.length false) :
    Reading hook ((debouncer 0x40).run i (samples.map impulseHigh))
        ((debouncer 0x80).run s (samples.map dialHigh))
        (c + ((debouncer 0x40).outputs i (samples.map impulseHigh)).count true)
        (dial.run d samples) ∧
      dial.outputs d samples = List.replicate samples.length 0 := by
  induction samples generalizing d i s c with
  | nil => exact ⟨h, rfl⟩
  | cons x samples ih =>
    simp only [List.map_cons, Mealy.outputs_cons, debouncer_step, List.length_cons,
      List.replicate_succ, List.cons.injEq] at hquiet
    obtain ⟨hstep, hret⟩ := h.step (hhook x List.mem_cons_self) hquiet.1
    obtain ⟨hread, hout⟩ := ih hstep (fun y hy => hhook y (List.mem_cons_of_mem x hy)) hquiet.2
    refine ⟨?_, ?_⟩
    · -- the first sample's report, if any, is counted before the others
      have hcount : c + ((debouncer 0x40).outputs i ((x :: samples).map impulseHigh)).count true =
          c + (debounce 0x40 i (impulseHigh x)).2.toNat +
            ((debouncer 0x40).outputs (debounce 0x40 i (impulseHigh x)).1
              (samples.map impulseHigh)).count true := by
        rw [List.map_cons, Mealy.outputs_cons, debouncer_step]
        cases (debounce 0x40 i (impulseHigh x)).2 with
        | true => simp; omega
        | false => simp
      rw [hcount]
      exact hread
    · rw [Mealy.outputs_cons, List.length_cons, List.replicate_succ]
      exact congrArg₂ List.cons hret hout

/-! ## One digit -/

/-- The pulses of a digit, as the debouncer of the impulse contact reads them. -/
theorem impulse_pulses {hook : Bool} (pulses : List (Pulse hook)) :
    (debouncer 0x40).run 0 ((pulses.flatMap Pulse.samples).map impulseHigh) = 0 ∧
      ((debouncer 0x40).outputs 0 ((pulses.flatMap Pulse.samples).map impulseHigh)).count true =
        pulses.length := by
  induction pulses with
  | nil => exact ⟨rfl, rfl⟩
  | cons p pulses ih =>
    have hbounce : (p.bounce.map impulseHigh).length + 1 = 0x40 := by simp [p.bounce_length]
    have hpress := run_press (p.bounce.map impulseHigh) (p.high.map impulseHigh)
      (p.low.map impulseHigh) hbounce (by simpa using p.high_high)
      (by simpa using p.low_nonempty) (by simpa using p.low_low)
    -- seen by the impulse contact, a pulse is one press
    have hsamples : p.samples.map impulseHigh =
        true :: (p.bounce.map impulseHigh ++ p.high.map impulseHigh ++
          p.low.map impulseHigh) := by
      simp [Pulse.samples, p.first_high]
    rw [← hsamples] at hpress
    rw [List.flatMap_cons, List.map_append, Mealy.run_append, Mealy.outputs_append, hpress.1,
      hpress.2, List.count_append, ih.1, ih.2, List.count_cons_self, List.count_replicate]
    simp
    omega

/-- While the dial turns: the impulse contact comes back to rest, and every pulse is
    reported once. -/
theorem impulse_turning {hook : Bool} (p : DigitPlay hook) :
    (debouncer 0x40).run 0 (p.turning.map impulseHigh) = 0 ∧
      ((debouncer 0x40).outputs 0 (p.turning.map impulseHigh)).count true =
        pulseCount p.digit := by
  have hlead : (debouncer 0x40).run 0 (p.lead.map impulseHigh) = 0 ∧
      (debouncer 0x40).outputs 0 (p.lead.map impulseHigh) =
        List.replicate (p.lead.map impulseHigh).length false := by
    -- there may be no quiet samples before the first pulse
    by_cases hnil : p.lead = []
    · simp [hnil]
    · exact run_released 0x40 (Nat.zero_le 1) (by simpa using hnil)
        (by simpa using fun x hx => (p.lead_quiet x hx).1)
  obtain ⟨hrun, hcount⟩ := impulse_pulses p.pulses
  rw [DigitPlay.turning, List.map_append, Mealy.run_append, Mealy.outputs_append, hlead.1,
    hlead.2, List.count_append, hrun, hcount, List.count_replicate, p.pulses_length]
  simp

theorem turning_steady {hook : Bool} (p : DigitPlay hook) :
    ∀ x ∈ p.turning, dialHigh x = false ∧ hangupHigh x = hook := by
  intro x hx
  rw [DigitPlay.turning, List.mem_append, List.mem_flatMap] at hx
  rcases hx with hx | ⟨q, -, hx⟩
  · exact (p.lead_quiet x hx).2
  · exact q.steady x hx

theorem turning_nonempty {hook : Bool} (p : DigitPlay hook) : p.turning ≠ [] := by
  have hpos : 0 < p.pulses.length := by
    rw [p.pulses_length, pulseCount]
    split <;> omega
  obtain ⟨q, qs, hq⟩ := List.exists_cons_of_length_pos hpos
  rw [DigitPlay.turning, hq]
  simp [Pulse.samples]

/-- From rest, the turning dial leaves the digit's pulses in the counter and returns
    nothing. -/
theorem Reading.turning {hook : Bool} {d : Dial} (h : Reading hook 0 1 0 d)
    (p : DigitPlay hook) :
    Reading hook 0 0 (pulseCount p.digit) (dial.run d p.turning) ∧
      dial.outputs d p.turning = List.replicate p.turning.length 0 := by
  obtain ⟨himp, hcount⟩ := impulse_turning p
  -- the dial contact is low all along, which settles its debouncer on released
  have hne : p.turning.map dialHigh ≠ [] := by simpa using turning_nonempty p
  obtain ⟨hdial, hquiet⟩ := run_released 0x80 (Nat.le_refl 1) hne
    (by simpa using fun x hx => (turning_steady p x hx).1)
  rw [List.length_map] at hquiet
  obtain ⟨hread, hout⟩ := h.segment (fun x hx => (turning_steady p x hx).2) hquiet
  rw [himp, hdial, hcount, Nat.zero_add] at hread
  exact ⟨hread, hout⟩

/-- The first high sample of the dial contact returns the digit and clears the counter. -/
theorem Reading.release {hook : Bool} {n : ℕ} {d : Dial} (h : Reading hook 0 0 n d)
    {x : UInt8} (hx : dialHigh x = true) (himp : impulseHigh x = false)
    (hhook : hangupHigh x = hook) :
    Reading hook 0 0x80 0 (dialScan x d).1 ∧
      (dialScan x d).2 = digitChar (UInt8.ofNat n) := by
  have hfires : FiresDigit x d := by
    rw [firesDigit_iff, h.dialing, hx]
    rfl
  refine ⟨⟨?_, ?_, ?_, ?_⟩, ?_⟩
  · rw [dialScan_stateImpulse, h.impulse, himp]
    rfl
  · rw [dialScan_stateDialing, h.dialing, hx]
    rfl
  · rw [dialScan_stateHangup, h.hangup, hhook, hookStep_steady]
  · rw [dialScan_dialCounter, if_pos hfires]
    rfl
  · rw [dialScan_returns, h.hangup, hhook, hookStep_steady, if_pos hfires, h.countedImpulses,
      himp]
    rfl

theorem digitChar_pulseCount (digit : Fin 10) :
    digitChar (UInt8.ofNat (pulseCount digit)) = '0'.toUInt8 + UInt8.ofNat digit := by
  revert digit
  decide

/-- From rest, a dialled digit is returned once and leads back to rest. -/
theorem Reading.digit {hook : Bool} {d : Dial} (h : Reading hook 0 1 0 d)
    (p : DigitPlay hook) :
    Reading hook 0 1 0 (dial.run d p.samples) ∧
      (dial.outputs d p.samples).filter (· ≠ 0) = ['0'.toUInt8 + UInt8.ofNat p.digit] := by
  obtain ⟨hturn, hturnOut⟩ := h.turning p
  obtain ⟨himp, hhook⟩ := p.steady p.release List.mem_cons_self
  obtain ⟨hrel, hrelOut⟩ := hturn.release p.release_high himp hhook
  -- the chatter falls into the lockout of the dial contact, and then the contact is held
  have hchatter : (p.chatter.map dialHigh).length + 1 = 0x80 := by simp [p.chatter_length]
  have hhold := run_hold (p.chatter.map dialHigh) (p.rest.map dialHigh) hchatter
    (by simpa using p.rest_high)
  simp only [Mealy.run_cons, Mealy.outputs_cons, debouncer_step, debounce_zero_true,
    List.cons.injEq, true_and, ← List.map_append, List.length_map] at hhold
  have hquiet : ∀ x ∈ p.chatter ++ p.rest, impulseHigh x = false ∧ hangupHigh x = hook :=
    fun x hx => p.steady x (List.mem_cons_of_mem _ hx)
  obtain ⟨hrest, hrestOut⟩ := hrel.segment (fun x hx => (hquiet x hx).2) hhold.2
  -- the impulse contact stays released meanwhile
  have himpulse : (debouncer 0x40).run 0 ((p.chatter ++ p.rest).map impulseHigh) = 0 ∧
      (debouncer 0x40).outputs 0 ((p.chatter ++ p.rest).map impulseHigh) =
        List.replicate ((p.chatter ++ p.rest).map impulseHigh).length false := by
    refine run_released 0x40 (Nat.zero_le 1) (fun hnil => ?_) (fun b hb => ?_)
    · have hlen := congrArg List.length hnil
      rw [List.length_map, List.length_append, p.chatter_length, List.length_nil] at hlen
      omega
    · obtain ⟨x, hx, rfl⟩ := List.mem_map.mp hb
      exact (hquiet x hx).1
  rw [himpulse.1, himpulse.2, hhold.1, List.count_replicate] at hrest
  refine ⟨?_, ?_⟩
  · rw [DigitPlay.samples, Mealy.run_append, Mealy.run_cons]
    exact hrest
  · have hne : '0'.toUInt8 + UInt8.ofNat p.digit ≠ 0 := by
      have : ∀ k : Fin 10, '0'.toUInt8 + UInt8.ofNat k ≠ 0 := by decide
      exact this p.digit
    have hrelOut' : (dial.step (dial.run d p.turning) p.release).2 =
        '0'.toUInt8 + UInt8.ofNat p.digit := hrelOut.trans (digitChar_pulseCount p.digit)
    have hrestOut' : dial.outputs (dial.step (dial.run d p.turning) p.release).1
        (p.chatter ++ p.rest) = List.replicate (p.chatter ++ p.rest).length 0 := hrestOut
    rw [DigitPlay.samples, Mealy.outputs_append, Mealy.outputs_cons, hturnOut, hrelOut',
      hrestOut']
    simp [hne]

/-! ## Lists of digits -/

/-- **Decoding inverts dialling**: from rest, for every list of digits however they are
    played, the non-zero values returned by `dial_scan` are the characters of these
    digits in order, and the rest state is reached again. -/
theorem dialling_decoded (hook : Bool) (plays : List (DigitPlay hook)) :
    (dial.outputs (restState hook) (plays.flatMap DigitPlay.samples)).filter (· ≠ 0) =
        plays.map (fun p => '0'.toUInt8 + UInt8.ofNat p.digit) ∧
      dial.run (restState hook) (plays.flatMap DigitPlay.samples) = restState hook := by
  induction plays with
  | nil => exact ⟨rfl, rfl⟩
  -- every digit starts and ends at rest, so the digits do not interfere
  | cons p plays ih =>
    obtain ⟨hread, hout⟩ := (reading_restState hook).digit p
    have hrest := hread.eq_restState
    rw [List.flatMap_cons, Mealy.outputs_append, Mealy.run_append, List.filter_append, hout,
      hrest, ih.1, ih.2]
    exact ⟨rfl, rfl⟩

/-- A pulse without bounce. -/
def Pulse.clean : Pulse false where
  first := 0x40
  bounce := List.replicate 63 0x40
  high := []
  low := [0]
  first_high := rfl
  bounce_length := List.length_replicate
  high_high := by simp
  low_nonempty := by simp
  low_low := by simp [impulseHigh]
  steady := by
    intro x hx
    have hx' : x = 0x40 ∨ x = 0 := by simpa [List.mem_replicate] using hx
    rcases hx' with rfl | rfl <;> decide

/-- Any digit can be dialled, with no bounce and no rest to spare. -/
def DigitPlay.clean (digit : Fin 10) : DigitPlay false where
  digit := digit
  lead := []
  pulses := List.replicate (pulseCount digit) Pulse.clean
  release := 0x10
  chatter := List.replicate 127 0x10
  rest := []
  lead_quiet := by simp
  pulses_length := List.length_replicate
  release_high := rfl
  chatter_length := List.length_replicate
  rest_high := by simp
  steady := by
    intro x hx
    have hx' : x = 0x10 := by simpa using hx
    rw [hx']
    decide

example : (dial.outputs (restState false)
    ((DigitPlay.clean 2).samples ++ (DigitPlay.clean 0).samples)).filter (· ≠ 0) =
    ['2'.toUInt8, '0'.toUInt8] := by
  decide +kernel

end LoccFirmware.Input
