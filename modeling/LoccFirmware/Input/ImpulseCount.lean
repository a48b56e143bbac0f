import LoccFirmware.Input.DialEvents
import LoccFirmware.Input.Dialling

/-!
# Impulses and the Digits Made of Them

`dial_counter` counts the impulses of a digit in eight bits and is looked at only when the
dial comes to rest.  Two things can go wrong, and this file says exactly when they do.

The counter wraps: 257 impulses are reported as `1`.  And the digit branch does not ask
whether there was an impulse at all: when the dial contact rises without one, as it does
in the first call after reset with the dial at rest, the digit is `0`, as for ten.

Both are said of the contacts themselves: the digit branch is taken at the rises of the
dial contact, and what it finds in the counter are the rises of the impulse contact
since the one before.
-/

namespace LoccFirmware.Input

open LoccFirmware.Automata

/-! ## Counted impulses -/

/-- The value that the digit branch gives to `rv`. -/
def digitProduced (pinc : UInt8) (d : Dial) : UInt8 :=
  (scanDialing pinc (scanImpulse pinc d) 0).2

/-- How often `dial_counter++` has been executed up to the digit block of call `t`, since
the last digit or reset. -/
noncomputable def impulsesCounted (samples : List UInt8) : ℕ → ℕ :=
  countSince (CountsImpulseAt samples) (FiresDigitAt samples)

/-- The digit for a number of impulses. -/
def digitOf (n : ℕ) : UInt8 :=
  if n ≤ 9 then '0'.toUInt8 + UInt8.ofNat n else '0'.toUInt8

/-- Every digit made of one impulse or more is the digit for their number. -/
def DigitsMatchCount (samples : List UInt8) : Prop :=
  ∀ t x, samples[t]? = some x → FiresDigitAt samples t → 1 ≤ impulsesCounted samples t →
    digitProduced x (scanned (samples.take t)) = digitOf (impulsesCounted samples t)

/-- Every digit is made of one impulse or more. -/
def NoPhantomDigits (samples : List UInt8) : Prop :=
  ∀ t, FiresDigitAt samples t → 1 ≤ impulsesCounted samples t

theorem digitProduced_of_fires {pinc : UInt8} {d : Dial} (h : FiresDigit pinc d) :
    digitProduced pinc d = digitChar (countedImpulses pinc d) := by
  have hfires : FiresDigit pinc (scanImpulse pinc d) := by
    rw [scanImpulse_eq]
    exact h
  have hdigit : digitProduced pinc d = digitChar (scanImpulse pinc d).dialCounter := by
    rw [digitProduced, scanDialing_eq]
    exact if_pos hfires
  rw [hdigit, scanImpulse_eq]

theorem countedImpulses_of_counter {d : Dial} {c : ℕ} (h : d.dialCounter = UInt8.ofNat c)
    (pinc : UInt8) :
    countedImpulses pinc d = UInt8.ofNat (c + if CountsImpulse pinc d then 1 else 0) := by
  unfold countedImpulses
  split
  · rw [h, UInt8.ofNat_add]
    rfl
  · rw [h, Nat.add_zero]

/-- The counter holds the number of impulses, as far as eight bits go. -/
theorem countedImpulses_eq (samples : List UInt8) {t : ℕ} {x : UInt8}
    (hx : samples[t]? = some x) :
    countedImpulses x (scanned (samples.take t)) = UInt8.ofNat (impulsesCounted samples t) := by
  induction t generalizing x with
  | zero =>
    have hreset : (scanned (samples.take 0)).dialCounter = UInt8.ofNat 0 := rfl
    rw [countedImpulses_of_counter hreset, impulsesCounted, countSince_zero, Nat.zero_add]
    simp only [CountsImpulseAt, callAt_iff hx]
  | succ t ih =>
    have hlt : t < samples.length := by
      have := (List.getElem?_eq_some_iff.mp hx).1
      omega
    have hy : samples[t]? = some samples[t] := List.getElem?_eq_getElem hlt
    -- what call `t` leaves: nothing after a digit, the impulses so far otherwise
    have hcounter : (scanned (samples.take (t + 1))).dialCounter =
        UInt8.ofNat (if FiresDigitAt samples t then 0 else impulsesCounted samples t) := by
      have hstep : scanned (samples.take (t + 1)) =
        (dialScan samples[t] (scanned (samples.take t))).1 := Mealy.run_take_succ dial Dial.reset hy
      rw [hstep, dialScan_dialCounter, ih hy]
      simp only [FiresDigitAt, callAt_iff hy]
      split <;> rfl
    rw [countedImpulses_of_counter hcounter, impulsesCounted, countSince_succ]
    simp only [CountsImpulseAt, callAt_iff hx]

/-! ## The counter wraps -/

theorem digitChar_ofNat (n : ℕ) : digitChar (UInt8.ofNat n) = digitOf (n % 256) := by
  have table : ∀ k < 256, digitChar (UInt8.ofNat k) = digitOf k := by decide +kernel
  have hmod : UInt8.ofNat n = UInt8.ofNat (n % 256) := by
    apply UInt8.toNat_inj.mp
    simp
  rw [hmod]
  exact table (n % 256) (Nat.mod_lt n (by decide))

theorem digitOf_eq_zero_iff {k : ℕ} (hk : k < 256) :
    digitOf k = '0'.toUInt8 ↔ k = 0 ∨ 10 ≤ k := by
  have table : ∀ k < 256, digitOf k = '0'.toUInt8 ↔ k = 0 ∨ 10 ≤ k := by decide +kernel
  exact table k hk

/-- Eight bits give the right digit unless they make one to nine of more than that. -/
theorem digitChar_ofNat_eq_iff (n : ℕ) :
    digitChar (UInt8.ofNat n) = digitOf n ↔ n < 256 ∨ n % 256 = 0 ∨ 10 ≤ n % 256 := by
  rw [digitChar_ofNat]
  by_cases hn : n < 256
  · rw [Nat.mod_eq_of_lt hn]
    exact ⟨fun _ => Or.inl hn, fun _ => rfl⟩
  · have hlarge : digitOf n = '0'.toUInt8 := if_neg (by omega)
    rw [hlarge, digitOf_eq_zero_iff (Nat.mod_lt n (by decide))]
    exact ⟨Or.inr, fun h => h.resolve_left hn⟩

/-! ## On the contacts -/

/-- The rises of the impulse contact up to sample `t`, since the last rise of the dial
contact before. -/
noncomputable def impulseRises (impulse dialing : List Bool) : ℕ → ℕ :=
  countSince (Rises 0x40 impulse) (Rises 0x80 dialing)

theorem impulsesCounted_eq (samples : List UInt8) (t : ℕ) :
    impulsesCounted samples t =
      impulseRises (samples.map impulseHigh) (samples.map dialHigh) t :=
  countSince_congr (countsImpulseAt_iff_rises samples) (firesDigitAt_iff_rises samples)

/-- No rise of the dial contact finds so many impulses before it that the counter has
wrapped to one of one to nine. -/
def CountsFit (impulse dialing : List Bool) : Prop :=
  ∀ t, Rises 0x80 dialing t →
    impulseRises impulse dialing t < 256 ∨ impulseRises impulse dialing t % 256 = 0 ∨
      10 ≤ impulseRises impulse dialing t % 256

/-- **Digits and impulses**: for every sequence of samples seen by `dial_scan` from reset,
    every digit made of at least one impulse is the right one for their number if and
    only if at every rise of the dial contact this number is below 256 or leaves no
    remainder of one to nine. -/
theorem digitsMatchCount_iff (samples : List UInt8) :
    DigitsMatchCount samples ↔ CountsFit (samples.map impulseHigh) (samples.map dialHigh) := by
  have hdigit : ∀ t x, samples[t]? = some x → FiresDigitAt samples t →
      (digitProduced x (scanned (samples.take t)) = digitOf (impulsesCounted samples t) ↔
        impulsesCounted samples t < 256 ∨ impulsesCounted samples t % 256 = 0 ∨
          10 ≤ impulsesCounted samples t % 256) := by
    intro t x hx hfires
    rw [digitProduced_of_fires ((callAt_iff hx).mp hfires), countedImpulses_eq samples hx,
      digitChar_ofNat_eq_iff]
  unfold DigitsMatchCount CountsFit
  simp only [← firesDigitAt_iff_rises, ← impulsesCounted_eq]
  constructor
  · intro h t hfires
    obtain ⟨x, hx, -⟩ := id hfires
    -- without an impulse there is nothing to wrap
    rcases Nat.eq_zero_or_pos (impulsesCounted samples t) with hzero | hpos
    · exact Or.inl (by omega)
    · exact (hdigit t x hx hfires).mp (h t x hx hfires hpos)
  · intro h t x hx hfires _
    exact (hdigit t x hx hfires).mpr (h t hfires)

section Pulses

variable {hook : Bool} (pulses : List (Pulse hook)) {x : UInt8}

/-- From reset, after any number of pulses, the first high sample of the dial contact makes
    the first digit. -/
theorem firesDigitAt_pulses_iff (hdial : dialHigh x = true) {t : ℕ}
    (ht : t ≤ (pulses.flatMap Pulse.samples).length) :
    FiresDigitAt (pulses.flatMap Pulse.samples ++ [x]) t ↔
      t = (pulses.flatMap Pulse.samples).length := by
  have hlow : ∀ y ∈ pulses.flatMap Pulse.samples, dialHigh y = false := by
    intro y hy
    obtain ⟨p, -, hy⟩ := List.mem_flatMap.mp hy
    exact (p.steady y hy).1
  -- before that sample the dial contact is low
  have hhigh : ∀ s, s ≤ (pulses.flatMap Pulse.samples).length →
      ((pulses.flatMap Pulse.samples ++ [x]).map dialHigh)[s]? = some true →
        s = (pulses.flatMap Pulse.samples).length := by
    intro s hs hs'
    rw [List.getElem?_map, Option.map_eq_some_iff] at hs'
    obtain ⟨y, hy, hytrue⟩ := hs'
    rcases getElem?_concat_eq_some_iff.mp hy with hold | ⟨hlast, -⟩
    · rw [hlow y (List.mem_of_getElem? hold)] at hytrue
      cases hytrue
    · exact hlast
  rw [firesDigitAt_iff_rises, rises_iff]
  constructor
  · rintro ⟨htrue, -⟩
    exact hhigh t ht htrue
  · rintro rfl
    refine ⟨by simp [hdial], fun s hs hrise => ?_⟩
    exact absurd (hhigh s (Nat.le_of_lt hs) (rises_iff.mp hrise).1) (Nat.ne_of_lt hs)

theorem impulsesCounted_pulses (hdial : dialHigh x = true) (himpulse : impulseHigh x = false) :
    impulsesCounted (pulses.flatMap Pulse.samples ++ [x]) (pulses.flatMap Pulse.samples).length =
      pulses.length := by
  have hquiet : ∀ s < (pulses.flatMap Pulse.samples).length,
      ¬ FiresDigitAt (pulses.flatMap Pulse.samples ++ [x]) s := by
    intro s hs
    rw [firesDigitAt_pulses_iff pulses hdial (Nat.le_of_lt hs)]
    exact Nat.ne_of_lt hs
  have hcounts : ∀ u, CountsImpulseAt (pulses.flatMap Pulse.samples ++ [x]) u ↔
      ((debouncer 0x40).outputs 0
        ((pulses.flatMap Pulse.samples ++ [x]).map impulseHigh))[u]? = some true := by
    intro u
    rw [countsImpulseAt_iff_rises, ← reportsAt_iff_rises (by decide), ReportsAt]
  obtain ⟨hrun, hcount⟩ := impulse_pulses pulses
  rw [impulsesCounted, countSince_of_quiet hquiet hcounts, List.take_of_length_le (by simp),
    List.map_append, List.map_singleton, Mealy.outputs_concat, hrun, himpulse, List.count_append,
    hcount]
  rfl

end Pulses

/-- 257 impulses and then the dial at rest: the digit is `1`, not `0`. -/
theorem not_digitsMatchCount_wrapped :
    ¬ DigitsMatchCount ((List.replicate 257 Pulse.clean).flatMap Pulse.samples ++ [0x10]) := by
  intro h
  have hcounted := impulsesCounted_pulses (List.replicate 257 Pulse.clean) (x := 0x10)
    (by decide) (by decide)
  rw [List.length_replicate] at hcounted
  have hfires := (firesDigitAt_pulses_iff (List.replicate 257 Pulse.clean) (x := 0x10)
    (by decide) (Nat.le_refl _)).mpr rfl
  have hx : ((List.replicate 257 Pulse.clean).flatMap Pulse.samples ++
      [0x10])[((List.replicate 257 Pulse.clean).flatMap Pulse.samples).length]? = some 0x10 :=
    List.getElem?_concat_length
  -- the branch computes its digit from 257, in eight bits
  have hdigit := h _ _ hx hfires (by rw [hcounted]; decide)
  rw [digitProduced_of_fires ((callAt_iff hx).mp hfires), countedImpulses_eq _ hx, hcounted]
    at hdigit
  exact absurd hdigit (by decide)

/-! ## Digits without impulses -/

/-- The impulse contact is high at the latest when the dial contact first is, and it rises
between any two successive rises of the dial contact. -/
structure EveryTurnHasImpulse (impulse dialing : List Bool) : Prop where
  first : ∀ t : ℕ, dialing[t]? = some true → ∃ u : ℕ, u ≤ t ∧ impulse[u]? = some true
  between : ∀ s t, s < t → Rises 0x80 dialing s → Rises 0x80 dialing t →
    (∀ k, s < k → k < t → ¬ Rises 0x80 dialing k) → ∃ u, s < u ∧ u ≤ t ∧ Rises 0x40 impulse u

theorem everyTurnHasImpulse_iff (impulse dialing : List Bool) :
    EveryTurnHasImpulse impulse dialing ↔
      ∀ t, Rises 0x80 dialing t → ∃ u, u ≤ t ∧ Rises 0x40 impulse u ∧
        ∀ s < t, Rises 0x80 dialing s → s < u := by
  constructor
  · intro h t ht
    by_cases hearlier : ∃ s, s < t ∧ Rises 0x80 dialing s
    · obtain ⟨s, hst, hs, hlast⟩ := exists_last_before hearlier
      obtain ⟨u, hsu, hut, hu⟩ := h.between s t hst hs ht hlast
      refine ⟨u, hut, hu, fun r hrt hr => ?_⟩
      -- no rise comes after the last one
      by_contra hru
      exact hlast r (by omega) hrt hr
    · obtain ⟨v, hvt, hv⟩ := h.first t (rises_iff.mp ht).1
      obtain ⟨u, huv, hu⟩ := exists_rises_of_high 0x40 hv
      exact ⟨u, by omega, hu, fun s hst hs => absurd ⟨s, hst, hs⟩ hearlier⟩
  · intro h
    refine ⟨fun t ht => ?_, fun s t hst hs ht _ => ?_⟩
    · obtain ⟨v, hvt, hv⟩ := exists_rises_of_high 0x80 ht
      obtain ⟨u, huv, hu, -⟩ := h v hv
      exact ⟨u, by omega, (rises_iff.mp hu).1⟩
    · obtain ⟨u, hut, hu, hlast⟩ := h t ht
      exact ⟨u, hlast s hst hs, hut, hu⟩

/-- **No phantom digits, exactly**: for every sequence of samples seen by `dial_scan` from
    reset, every digit is made of at least one impulse if and only if every turn of the
    dial has one. -/
theorem noPhantomDigits_iff (samples : List UInt8) :
    NoPhantomDigits samples ↔
      EveryTurnHasImpulse (samples.map impulseHigh) (samples.map dialHigh) := by
  rw [everyTurnHasImpulse_iff]
  unfold NoPhantomDigits
  simp only [impulsesCounted, countSince_pos_iff, firesDigitAt_iff_rises,
    countsImpulseAt_iff_rises]

/-- The first call after reset, with the dial at rest: a `0` that nobody dialled. -/
theorem not_noPhantomDigits_at_rest : ¬ NoPhantomDigits [0x10] := by
  intro h
  have hcounted := h 0 (by decide)
  obtain ⟨u, hu, ⟨x, hx, himpulse⟩, -⟩ := countSince_pos_iff.mp hcounted
  obtain rfl : u = 0 := by omega
  obtain rfl : 0x10 = x := Option.some.inj hx
  exact absurd himpulse (by decide)

end LoccFirmware.Input
