import LoccFirmware.Input.Dial

/-!
# Hook-Switch Reports

The host delimits PIN entry by the `H` and `h` characters of the hook switch.  It
would like them to alternate, and the last one to tell how a settled hook stands.

The hook block of `dial_scan` waits 253 calls after a report and then, in state 2,
adopts the level of the pin without a word.  If the pin changed sides meanwhile, the
host is never told.  That is the only way to get host and hook out of step: reports
are faithful on exactly those sample sequences where every hand-over in state 2 finds
the pin as it was 254 calls before, when the last report was made.
-/

namespace LoccFirmware.Input

open LoccFirmware.Automata

/-! ## The hook block alone -/

/-- The hook block as a machine from pin levels to reported levels. -/
def hook : Mealy ℕ Bool (Option Bool) where
  step := hookStep

@[simp] theorem hook_step (s : ℕ) (high : Bool) : hook.step s high = hookStep s high := rfl

/-- The levels reported in a sequence of calls. -/
def reports (os : List (Option Bool)) : List Bool :=
  os.filterMap id

theorem reports_concat_some (os : List (Option Bool)) (b : Bool) :
    reports (os ++ [some b]) = reports os ++ [b] := by
  simp [reports]

theorem reports_concat_none (os : List (Option Bool)) :
    reports (os ++ [none]) = reports os := by
  simp [reports]

/-- `high, low, high, …` -/
def Alternating (l : List Bool) : Prop :=
  ∀ (j : ℕ) (b : Bool), l[j]? = some b → b = decide (j % 2 = 0)

theorem Alternating.nil : Alternating [] := by
  intro j b h
  simp at h

theorem Alternating.concat {l : List Bool} (h : Alternating l) :
    Alternating (l ++ [decide (l.length % 2 = 0)]) := by
  intro j b hj
  rcases Nat.lt_trichotomy j l.length with hlt | rfl | hgt
  · rw [List.getElem?_append_left hlt] at hj
    exact h j b hj
  · simpa using hj.symm
  · rw [List.getElem?_eq_none (by simp; omega)] at hj
    exact absurd hj (by simp)

/-- The last of an alternating sequence is high exactly when its length is odd. -/
theorem Alternating.getLast?_eq_true_iff {l : List Bool} (h : Alternating l) :
    l.getLast? = some true ↔ l.length % 2 = 1 := by
  rw [List.getLast?_eq_getElem?]
  rcases Nat.eq_zero_or_pos l.length with hzero | hpos
  · simp [List.length_eq_zero_iff.mp hzero]
  · have hlast : l[l.length - 1]? = some l[l.length - 1] :=
      List.getElem?_eq_getElem (by omega)
    rw [hlast, Option.some.injEq, h _ _ hlast, decide_eq_true_eq]
    omega

/-! ## What the state remembers -/

/-- During and right after the wait, the state tells how long ago the last report was,
    and the pin stood then as reported. -/
structure HookHistory (pins : List Bool) (s : ℕ) (os : List (Option Bool)) : Prop where
  bound : s ≤ 255
  lastReport : 2 ≤ s → 256 ≤ pins.length + s ∧
    ∃ y, pins[pins.length + s - 256]? = some y ∧ (reports os).getLast? = some y

theorem HookHistory.init : HookHistory [] 0 [] where
  bound := Nat.zero_le _
  lastReport h := absurd h (by decide)

/-- A report is made now, at the last position of the pin's history. -/
theorem HookHistory.of_report (pins : List Bool) (os : List (Option Bool)) (b : Bool) :
    HookHistory (pins ++ [b]) 255 (os ++ [some b]) where
  bound := Nat.le_refl _
  lastReport _ := by
    refine ⟨by simp, b, ?_, by rw [reports_concat_some, List.getLast?_concat]⟩
    simp

theorem HookHistory.step {pins : List Bool} {s : ℕ} {os : List (Option Bool)}
    (h : HookHistory pins s os) (high : Bool) :
    HookHistory (pins ++ [high]) (hookStep s high).1 (os ++ [(hookStep s high).2]) := by
  unfold hookStep
  split_ifs with hle hhigh hzero hone
  -- a report, or a settled level, of which nothing is remembered
  · subst hhigh
    exact HookHistory.of_report pins os true
  · exact ⟨by simp, fun h2 => absurd h2 (by simp)⟩
  · obtain rfl : high = false := by simpa using hhigh
    exact HookHistory.of_report pins os false
  · exact ⟨by simp, fun h2 => absurd h2 (by simp)⟩
  · -- one more call of the wait: the report is one call further back
    have hbound := h.bound
    refine ⟨by simp only; omega, fun _ => ?_⟩
    obtain ⟨hlen, y, hy, hlast⟩ := h.lastReport (by omega)
    refine ⟨by simp; omega, y, ?_, by rw [reports_concat_none]; exact hlast⟩
    have hidx : (pins ++ [high]).length + (s - 1) - 256 = pins.length + s - 256 := by
      simp
      omega
    rw [hidx, List.getElem?_append_left (by omega)]
    exact hy

theorem hookHistory (pins : List Bool) :
    HookHistory pins (hook.run 0 pins) (hook.outputs 0 pins) :=
  Mealy.history_induction (M := hook) (P := HookHistory) HookHistory.init
    (fun _ i h => h.step i) pins

/-! ## Faithful reports -/

/-- Reports alternate, starting with high, and whenever the block is settled the last
    report, if it made one, is the level it settled on. -/
structure Faithful (pins : List Bool) : Prop where
  alternate : Alternating (reports (hook.outputs 0 pins))
  settledHigh : ∀ t ≤ pins.length, hook.run 0 (pins.take t) = 1 →
    (reports (hook.outputs 0 (pins.take t))).getLast? = some true
  settledLow : ∀ t ≤ pins.length, hook.run 0 (pins.take t) = 0 →
    (reports (hook.outputs 0 (pins.take t))).getLast? ≠ some true

/-- Every call made in state 2 finds the pin as it was 254 calls before. -/
def HandoverAgrees (pins : List Bool) : Prop :=
  ∀ (t : ℕ) (x y : Bool), pins[t]? = some x → pins[t - 254]? = some y →
    hook.run 0 (pins.take t) = 2 → x = y

/-- State and reports agree: what `Faithful` asks for, at one moment. -/
structure HookAgreement (s : ℕ) (os : List (Option Bool)) : Prop where
  alternate : Alternating (reports os)
  high : s = 1 → (reports os).getLast? = some true
  low : s = 0 → (reports os).getLast? ≠ some true

/-- One call keeps state and reports in agreement, if a call in state 2 finds the pin
    at the level last reported. -/
theorem HookAgreement.step {s : ℕ} {os : List (Option Bool)} (h : HookAgreement s os)
    (high : Bool) (handover : s = 2 → (reports os).getLast? = some high) :
    HookAgreement (hookStep s high).1 (os ++ [(hookStep s high).2]) := by
  have hodd := h.alternate.getLast?_eq_true_iff
  unfold hookStep
  split_ifs with hle hhigh hzero hone
  · -- released and now high: an even number of reports so far
    have heven : (reports os).length % 2 = 0 := by
      have := h.low hzero
      rw [Ne, hodd] at this
      omega
    refine ⟨?_, fun h1 => absurd h1 (by decide), fun h0 => absurd h0 (by decide)⟩
    have := h.alternate.concat
    rw [heven] at this
    rw [reports_concat_some]
    exact this
  · -- in state 1, or adopted from state 2
    refine ⟨by rw [reports_concat_none]; exact h.alternate, fun _ => ?_,
      fun h0 => absurd h0 (by decide)⟩
    rw [reports_concat_none]
    rcases (by omega : s = 1 ∨ s = 2) with h1 | h2
    · exact h.high h1
    · rw [handover h2, hhigh]
  · -- held and now low: an odd number of reports so far
    have hone' : (reports os).length % 2 = 1 := hodd.mp (h.high hone)
    refine ⟨?_, fun h1 => absurd h1 (by decide), fun h0 => absurd h0 (by decide)⟩
    have := h.alternate.concat
    rw [hone'] at this
    rw [reports_concat_some]
    exact this
  · -- in state 0, or adopted from state 2
    refine ⟨by rw [reports_concat_none]; exact h.alternate, fun h1 => absurd h1 (by decide),
      fun _ => ?_⟩
    rw [reports_concat_none]
    rcases (by omega : s = 0 ∨ s = 2) with h0 | h2
    · exact h.low h0
    · rw [handover h2]
      simpa using hhigh
  · -- the wait ends in state 2, never in a settled one
    refine ⟨by rw [reports_concat_none]; exact h.alternate, fun h1 => ?_, fun h0 => ?_⟩
    · simp only at h1; omega
    · simp only at h0; omega

theorem HandoverAgrees.take {pins : List Bool} (h : HandoverAgrees pins) (n : ℕ) :
    HandoverAgrees (pins.take n) := by
  intro t x y hx hy h2
  rw [List.getElem?_take] at hx hy
  split at hx
  · rename_i hlt
    rw [if_pos (by omega)] at hy
    rw [List.take_take, Nat.min_eq_left (by omega)] at h2
    exact h t x y hx hy h2
  · exact absurd hx (by simp)

/-- In a call made in state 2 the last report was 254 calls ago, and of the level the
    pin had then. -/
theorem lastReport_of_handover {pins : List Bool} (h2 : hook.run 0 pins = 2) :
    ∃ y, pins[pins.length - 254]? = some y ∧
      (reports (hook.outputs 0 pins)).getLast? = some y := by
  have hhist := hookHistory pins
  rw [h2] at hhist
  obtain ⟨hlen, y, hy, hlast⟩ := hhist.lastReport (Nat.le_refl 2)
  rw [show pins.length + 2 - 256 = pins.length - 254 by omega] at hy
  exact ⟨y, hy, hlast⟩

theorem hookAgreement {pins : List Bool} (h : HandoverAgrees pins) :
    HookAgreement (hook.run 0 pins) (hook.outputs 0 pins) := by
  refine Mealy.history_induction (M := hook) (s := 0)
    (P := fun is s os => HandoverAgrees is → HookAgreement s os) ?_ ?_ pins h
  · exact fun _ => ⟨Alternating.nil, fun h1 => absurd h1 (by decide), fun _ => by simp [reports]⟩
  · intro is i ih hagree
    have hpre : HandoverAgrees is := by simpa using hagree.take is.length
    refine (ih hpre).step i (fun h2 => ?_)
    obtain ⟨y, hy, hlast⟩ := lastReport_of_handover h2
    have hlen : is.length - 254 < is.length := (List.getElem?_eq_some_iff.mp hy).1
    rw [hlast]
    -- the sample now read stands at position `is.length`
    refine congrArg some (hagree is.length i y (by simp) ?_ (by simpa using h2)).symm
    rw [List.getElem?_append_left hlen]
    exact hy

/-- **Hook reports, exactly**: on a sequence of pin levels the reports are faithful if
    and only if every hand-over finds the pin as it was at the last report. -/
theorem faithful_iff_handoverAgrees (pins : List Bool) :
    Faithful pins ↔ HandoverAgrees pins := by
  constructor
  · -- faithful reports leave a hand-over no choice
    intro h t x y hx hy h2
    have hlt : t < pins.length := (List.getElem?_eq_some_iff.mp hx).1
    have htake : pins.take (t + 1) = pins.take t ++ [x] := by
      rw [List.take_add_one, hx, Option.toList_some]
    obtain ⟨y', hy', hlast⟩ := lastReport_of_handover h2
    rw [List.length_take, Nat.min_eq_left (Nat.le_of_lt hlt), List.getElem?_take] at hy'
    obtain rfl : y' = y := by
      split at hy'
      · exact Option.some.inj (hy'.symm.trans hy)
      · exact absurd hy' (by simp)
    -- the hand-over settles on `x` and reports nothing
    have hstate := hook.run_concat 0 (pins.take t) x
    have houts := hook.outputs_concat 0 (pins.take t) x
    rw [h2, hook_step] at hstate houts
    cases x with
    | true =>
      have hsettled := h.settledHigh (t + 1) hlt (by rw [htake, hstate]; rfl)
      rw [htake, houts, show (hookStep 2 true).2 = none from rfl, reports_concat_none,
        hlast] at hsettled
      exact (Option.some.inj hsettled).symm
    | false =>
      have hsettled := h.settledLow (t + 1) hlt (by rw [htake, hstate]; rfl)
      rw [htake, houts, show (hookStep 2 false).2 = none from rfl, reports_concat_none,
        hlast] at hsettled
      simpa using hsettled
  · -- agreement at every moment is agreement after every prefix
    intro h
    exact ⟨(hookAgreement h).alternate, fun t _ => (hookAgreement (h.take t)).high,
      fun t _ => (hookAgreement (h.take t)).low⟩

/-! ## The characters of `dial_scan` -/

/-- The statics of `dial_scan` after a sequence of samples of port C. -/
def scanned (samples : List UInt8) : Dial :=
  dial.run Dial.reset samples

/-- What the successive calls of `dial_scan` return. -/
def scans (samples : List UInt8) : List UInt8 :=
  dial.outputs Dial.reset samples

/-- The hook characters among the returned ones. -/
def hookChars (rs : List UInt8) : List UInt8 :=
  rs.filter fun c => c = 'H'.toUInt8 ∨ c = 'h'.toUInt8

/-- The level a returned character reports. -/
def hookReport (c : UInt8) : Option Bool :=
  if c = 'H'.toUInt8 then some true
  else if c = 'h'.toUInt8 then some false
  else none

/-- The character for a reported level. -/
def hookChar (b : Bool) : UInt8 :=
  if b then 'H'.toUInt8 else 'h'.toUInt8

/-- No digit is a hook character. -/
theorem hookReport_digitChar (count : UInt8) : hookReport (digitChar count) = none := by
  have hle : digitChar count ≤ '9'.toUInt8 := (digitChar_range count).2
  have hH : digitChar count ≠ 'H'.toUInt8 := by
    intro h
    rw [h] at hle
    exact absurd hle (by decide)
  have hh : digitChar count ≠ 'h'.toUInt8 := by
    intro h
    rw [h] at hle
    exact absurd hle (by decide)
  rw [hookReport, if_neg hH, if_neg hh]

theorem hookReport_dialScan (pinc : UInt8) (d : Dial) :
    hookReport (dialScan pinc d).2 = (hookStep d.stateHangup.toNat (hangupHigh pinc)).2 := by
  rw [dialScan_returns]
  -- without a hook report the character is a digit or 0
  rcases (hookStep d.stateHangup.toNat (hangupHigh pinc)).2 with _ | _ | _
  · simp only
    split
    · exact hookReport_digitChar _
    · rfl
  · rfl
  · rfl

/-- The hook block is all that `dial_scan` does with the hook pin. -/
theorem dial_simulates_hook :
    Mealy.Simulation dial hook (fun d s => d.stateHangup.toNat = s)
      (fun pinc _ => hangupHigh pinc) hookReport where
  state d s pinc h := by
    rw [← h]
    exact dialScan_stateHangup pinc d
  output d s pinc h := by
    rw [← h]
    exact hookReport_dialScan pinc d

theorem scanned_stateHangup (samples : List UInt8) :
    (scanned samples).stateHangup.toNat = hook.run 0 (samples.map hangupHigh) := by
  rw [← dial.drives_input hangupHigh Dial.reset samples]
  exact dial_simulates_hook.run rfl samples

theorem hookChars_eq_map_reports (rs : List UInt8) :
    hookChars rs = (reports (rs.map hookReport)).map hookChar := by
  induction rs with
  | nil => rfl
  | cons c rs ih =>
    unfold hookChars reports at ih ⊢
    rw [List.filter_cons, List.map_cons, List.filterMap_cons, ih]
    -- `H`, `h`, or a character that reports nothing
    by_cases hH : c = 'H'.toUInt8
    · simp [hookReport, hookChar, hH]
    · by_cases hh : c = 'h'.toUInt8
      · have hne : 'h'.toUInt8 ≠ 'H'.toUInt8 := by decide
        simp [hookReport, hookChar, hh, hne]
      · simp [hookReport, hH, hh]

theorem hookChars_scans (samples : List UInt8) :
    hookChars (scans samples) =
      (reports (hook.outputs 0 (samples.map hangupHigh))).map hookChar := by
  rw [hookChars_eq_map_reports, scans]
  rw [dial_simulates_hook.outputs (t := 0) rfl samples, Mealy.drives_input]

/-- The hook characters alternate, starting with `H`, and whenever the hook block is
    settled the last of them is the one for its level; before the first report it may
    be settled on low. -/
structure HookFaithful (samples : List UInt8) : Prop where
  alternate : ∀ (j : ℕ) (c : UInt8), (hookChars (scans samples))[j]? = some c →
    c = if j % 2 = 0 then 'H'.toUInt8 else 'h'.toUInt8
  settledHigh : ∀ t ≤ samples.length, (scanned (samples.take t)).stateHangup = 1 →
    (hookChars (scans (samples.take t))).getLast? = some 'H'.toUInt8
  settledLow : ∀ t ≤ samples.length, (scanned (samples.take t)).stateHangup = 0 →
    (hookChars (scans (samples.take t))).getLast? = none ∨
      (hookChars (scans (samples.take t))).getLast? = some 'h'.toUInt8

/-- Whenever `dial_scan` is called with `state_hangup = 2`, the hook pin has the level it
    had 254 calls before. -/
def HookHandoverAgrees (samples : List UInt8) : Prop :=
  ∀ (t : ℕ) (x y : UInt8), samples[t]? = some x → samples[t - 254]? = some y →
    (scanned (samples.take t)).stateHangup = 2 → hangupHigh x = hangupHigh y

theorem hookChar_injective {a b : Bool} (h : hookChar a = hookChar b) : a = b := by
  revert a b
  decide

theorem alternating_iff (l : List Bool) :
    Alternating l ↔ ∀ (j : ℕ) (c : UInt8), (l.map hookChar)[j]? = some c →
      c = if j % 2 = 0 then 'H'.toUInt8 else 'h'.toUInt8 := by
  have hchar : ∀ j : ℕ, (if j % 2 = 0 then 'H'.toUInt8 else 'h'.toUInt8) =
      hookChar (decide (j % 2 = 0)) := by
    intro j
    simp [hookChar]
  simp only [hchar, List.getElem?_map]
  constructor
  · intro h j c hc
    obtain ⟨b, hb, rfl⟩ := Option.map_eq_some_iff.mp hc
    rw [h j b hb]
  · intro h j b hb
    exact hookChar_injective (h j (hookChar b) (by rw [hb]; rfl))

theorem scanned_stateHangup_eq_iff (samples : List UInt8) (n : UInt8) :
    (scanned samples).stateHangup = n ↔
      hook.run 0 (samples.map hangupHigh) = n.toNat := by
  rw [← scanned_stateHangup, UInt8.toNat_inj]

/-- The characters are faithful exactly when the reports of the hook block are. -/
theorem hookFaithful_iff_faithful (samples : List UInt8) :
    HookFaithful samples ↔ Faithful (samples.map hangupHigh) := by
  have hlast : ∀ t, (hookChars (scans (samples.take t))).getLast? =
      (reports (hook.outputs 0 ((samples.map hangupHigh).take t))).getLast?.map hookChar := by
    intro t
    rw [hookChars_scans, List.getLast?_map, List.map_take]
  -- the characters say the same as the levels they stand for
  have hhigh : ∀ o : Option Bool, o.map hookChar = some 'H'.toUInt8 ↔ o = some true := by
    rintro (_ | _ | _) <;> decide
  have hlow : ∀ o : Option Bool,
      (o.map hookChar = none ∨ o.map hookChar = some 'h'.toUInt8) ↔ o ≠ some true := by
    rintro (_ | _ | _) <;> decide
  constructor
  · intro h
    refine ⟨?_, fun t ht hs => ?_, fun t ht hs => ?_⟩
    · rw [alternating_iff, ← hookChars_scans]
      exact h.alternate
    · rw [← List.map_take] at hs
      rw [← hhigh, ← hlast]
      exact h.settledHigh t (by simpa using ht) ((scanned_stateHangup_eq_iff _ 1).mpr hs)
    · rw [← List.map_take] at hs
      rw [← hlow, ← hlast]
      exact h.settledLow t (by simpa using ht) ((scanned_stateHangup_eq_iff _ 0).mpr hs)
  · intro h
    refine ⟨?_, fun t ht hs => ?_, fun t ht hs => ?_⟩
    · rw [hookChars_scans, ← alternating_iff]
      exact h.alternate
    · rw [scanned_stateHangup_eq_iff, List.map_take] at hs
      rw [hlast, hhigh]
      exact h.settledHigh t (by simpa using ht) hs
    · rw [scanned_stateHangup_eq_iff, List.map_take] at hs
      rw [hlast, hlow]
      exact h.settledLow t (by simpa using ht) hs

theorem hookHandoverAgrees_iff (samples : List UInt8) :
    HookHandoverAgrees samples ↔ HandoverAgrees (samples.map hangupHigh) := by
  unfold HookHandoverAgrees HandoverAgrees
  simp only [List.getElem?_map, ← List.map_take]
  constructor
  · intro h t x y hx hy hs
    obtain ⟨a, ha, rfl⟩ := Option.map_eq_some_iff.mp hx
    obtain ⟨b, hb, rfl⟩ := Option.map_eq_some_iff.mp hy
    exact h t a b ha hb ((scanned_stateHangup_eq_iff _ 2).mpr hs)
  · intro h t x y hx hy hs
    exact h t _ _ (by rw [hx]; rfl) (by rw [hy]; rfl) ((scanned_stateHangup_eq_iff _ 2).mp hs)

/-- **Hook characters, exactly**: for every sequence of samples seen by `dial_scan` from
    reset, the `H` and `h` characters are faithful to the hook if and only if every
    call made in state 2 finds the pin at its level of 254 calls before. -/
theorem hookFaithful_iff_handoverAgrees (samples : List UInt8) :
    HookFaithful samples ↔ HookHandoverAgrees samples := by
  rw [hookFaithful_iff_faithful, hookHandoverAgrees_iff, faithful_iff_handoverAgrees]

/-- The hook is lifted for one call and put back: after the wait the block is settled on
    low, and the last the host heard is `H`. -/
theorem not_hookFaithful_short_lift :
    ¬ HookFaithful (0x20 :: List.replicate 254 0x00) := by
  intro h
  have hlow := h.settledLow 255 (by decide +kernel) (by decide +kernel)
  exact absurd hlow (by decide +kernel)

end LoccFirmware.Input
