import LoccFirmware.Input.KeypadDebounce
import LoccFirmware.Automata.Contacts
import LoccFirmware.Automata.EventCounts

/-!
# What the Keypad Reports

A call of `keypad_scan` returns one character.  The character tells the key, since all
sixteen differ, and the key's debouncer reports a rise of its contact, counted in scans
of its own row.  So a key is reported again only after 65 of these, that is 260 calls,
and not before it has been released.

Up to four keys of a row can be pressed in the same call.  Their cells are all armed, but
the loop over the columns overwrites `ret`, and only the greatest column is returned.
-/

namespace LoccFirmware.Input

open LoccFirmware.Automata

/-! ## Calls and scans of a row -/

section Scans

variable {r : ℕ} (hr : r < 4) (i : ℕ) (samples : List UInt8)

include hr

theorem length_keySamples : (keySamples r i samples).length = (samples.length + 3 - r) / 4 := by
  induction samples using List.reverseRecOn with
  | nil =>
    show 0 = (0 + 3 - r) / 4
    omega
  | append_singleton samples x ih =>
    rw [keySamples_concat, List.length_append, ih, List.length_append, List.length_singleton]
    split
    · rw [List.length_singleton]
      omega
    · rw [List.length_nil]
      omega

/-- Scan `n` of row `r` is call `4 * n + r`. -/
theorem getElem?_keySamples (n : ℕ) :
    (keySamples r i samples)[n]? = samples[4 * n + r]?.map fun x => keyPressed x i := by
  induction samples using List.reverseRecOn with
  | nil => rfl
  | append_singleton samples x ih =>
    have hlen := length_keySamples hr i samples
    rw [keySamples_concat]
    rcases Nat.lt_trichotomy (4 * n + r) samples.length with hlt | heq | hgt
    · -- an earlier call
      rw [List.getElem?_append_left (by omega), ih, List.getElem?_append_left hlt]
    · -- the last call, which is one of the row
      have hn : n = (keySamples r i samples).length := by omega
      rw [if_pos (by omega), heq, hn, List.getElem?_concat_length, List.getElem?_concat_length,
        Option.map_some]
    · -- past the end
      have hout : (samples ++ [x])[4 * n + r]? = none :=
        List.getElem?_eq_none (by rw [List.length_append, List.length_singleton]; omega)
      rw [hout, Option.map_none, List.getElem?_eq_none]
      rw [List.length_append]
      split
      · rw [List.length_singleton]
        omega
      · rw [List.length_nil]
        omega

/-- The scans of a row before call `t` of that row. -/
theorem keySamples_take {t : ℕ} (ht : t % 4 = r) :
    keySamples r i (samples.take t) = (keySamples r i samples).take (t / 4) := by
  apply List.ext_getElem?
  intro n
  rw [getElem?_keySamples hr, List.getElem?_take, List.getElem?_take, getElem?_keySamples hr]
  have hiff : 4 * n + r < t ↔ n < t / 4 := by omega
  by_cases hn : n < t / 4
  · rw [if_pos (hiff.mpr hn), if_pos hn]
  · rw [if_neg (fun h => hn (hiff.mp h)), if_neg hn, Option.map_none]

end Scans

/-- A key is reported at the rises of its contact, in scans of its row. -/
theorem keyReports_iff_rises {samples : List UInt8} {t i : ℕ} (ht : t < samples.length)
    (hi : i < 4) :
    KeyReports samples t i ↔ Rises 0x40 (keySamples (t % 4) i samples) (t / 4) := by
  have hr : t % 4 < 4 := Nat.mod_lt t (by decide)
  have hx : samples[t]? = some samples[t] := List.getElem?_eq_getElem ht
  rw [keyReports_iff hx hi, eq_zero_iff_toNat, debouncing_toNat _ hi,
    keySamples_take hr i samples rfl, ← reportsAt_iff_rises (by decide), reportsAt_iff_run,
    getElem?_keySamples hr, Nat.div_add_mod, hx, Option.map_some, Option.some.injEq, and_comm]

/-! ## Characters and keys -/

theorem lookupAt_injective : ∀ a < 16, ∀ b < 16, lookupAt a = lookupAt b → a = b := by
  decide +kernel

theorem lookupAt_ne_zero : ∀ a < 16, lookupAt a ≠ 0 := by
  decide

/-- The call that returns a key's character scans the key's row, and the key is reported. -/
theorem keyReports_of_returned {samples : List UInt8} {t r i : ℕ} (hr : r < 4) (hi : i < 4)
    (h : (keypad.outputs Keypad.reset samples)[t]? = some (lookupAt (r * 4 + i))) :
    t < samples.length ∧ t % 4 = r ∧ KeyReports samples t i := by
  have ht : t < samples.length := by
    have := (List.getElem?_eq_some_iff.mp h).1
    rwa [Mealy.outputs_length] at this
  obtain ⟨ret, hret, hcases⟩ := keypad_returns samples ht
  obtain rfl : ret = lookupAt (r * 4 + i) := Option.some.inj (hret.symm.trans h)
  rcases hcases with ⟨j, hj, hrep, -, heq⟩ | ⟨-, hzero⟩
  · have hindex := lookupAt_injective _ (by omega) _ (by omega) heq
    obtain rfl : i = j := by omega
    exact ⟨ht, by omega, hrep⟩
  · exact absurd hzero (lookupAt_ne_zero _ (by omega))

/-! ## Rate limits -/

/-- Between two calls that return a key's character, the key has been released. -/
theorem released_between {samples : List UInt8} {r i s t : ℕ} (hr : r < 4) (hi : i < 4)
    (hst : s < t)
    (hs : (keypad.outputs Keypad.reset samples)[s]? = some (lookupAt (r * 4 + i)))
    (ht : (keypad.outputs Keypad.reset samples)[t]? = some (lookupAt (r * 4 + i))) :
    s % 4 = r ∧ t % 4 = r ∧ s + 260 ≤ t ∧
      ∃ v x, v % 4 = r ∧ s + 4 * 64 ≤ v ∧ v < t ∧ samples[v]? = some x ∧
        keyPressed x i = false := by
  obtain ⟨hslt, hsr, hsrep⟩ := keyReports_of_returned hr hi hs
  obtain ⟨htlt, htr, htrep⟩ := keyReports_of_returned hr hi ht
  rw [keyReports_iff_rises hslt hi, hsr] at hsrep
  rw [keyReports_iff_rises htlt hi, htr] at htrep
  -- the two rises are 65 scans apart, the released sample lies 64 after the first
  have hsep := htrep.separated hsrep (by omega)
  obtain ⟨n, hsn, hnt, hn⟩ := htrep.low_between hsrep (by omega)
  rw [getElem?_keySamples hr, Option.map_eq_some_iff] at hn
  obtain ⟨x, hx, hreleased⟩ := hn
  exact ⟨hsr, htr, by omega, 4 * n + r, x, by omega, by omega, by omega, hx, hreleased⟩

/-- **Rate limits**: for every sequence of samples seen by `keypad_scan` from reset, two calls
    that return the same key's character scan its row and are at least 260 calls apart,
    and the key has been released in between, in a scan of its row that comes at least 64
    scans of it after the first.  So from any call on, a key that is held is reported at
    most once. -/
theorem key_rate_limited (samples : List UInt8) (r i : Fin 4) :
    (∀ s t : ℕ, s < t →
      (keypad.outputs Keypad.reset samples)[s]? = some (lookupAt (r * 4 + i)) →
      (keypad.outputs Keypad.reset samples)[t]? = some (lookupAt (r * 4 + i)) →
      s % 4 = r ∧ t % 4 = r ∧ s + 260 ≤ t ∧
        ∃ (v : ℕ) (x : UInt8), v % 4 = r ∧ s + 4 * 64 ≤ v ∧ v < t ∧ samples[v]? = some x ∧
          keyPressed x i = false) ∧
    (∀ n : ℕ, (∀ (v : ℕ) (x : UInt8), n ≤ v → v % 4 = r → samples[v]? = some x →
        keyPressed x i = true) →
      AtMostOnceFrom n fun t : ℕ =>
        (keypad.outputs Keypad.reset samples)[t]? = some (lookupAt (r * 4 + i))) := by
  refine ⟨fun s t hst hs ht => released_between r.isLt i.isLt hst hs ht,
    fun n hheld s t hns hnt hs ht => ?_⟩
  -- a released sample between two reports would lie in the stretch in which the key is held
  have hno : ∀ s t : ℕ, n ≤ s → s < t →
      (keypad.outputs Keypad.reset samples)[s]? = some (lookupAt (r * 4 + i)) →
      (keypad.outputs Keypad.reset samples)[t]? ≠ some (lookupAt (r * 4 + i)) := by
    intro s t hns hst hs ht
    obtain ⟨-, -, -, v, x, hvr, hsv, -, hx, hreleased⟩ :=
      released_between r.isLt i.isLt hst hs ht
    rw [hheld v x (by omega) hvr hx] at hreleased
    cases hreleased
  rcases Nat.lt_trichotomy s t with hst | rfl | hts
  · exact absurd ht (hno s t hns hst hs)
  · rfl
  · exact absurd hs (hno t s hnt hts ht)

/-! ## Armed keys -/

/-- Call `t` takes the cell of key `(r, i)` from 0 to `0x40`. -/
def ArmedAt (samples : List UInt8) (t r i : ℕ) : Prop :=
  t < samples.length ∧
    (keypad.run Keypad.reset (samples.take t)).debouncing r i = 0 ∧
    (keypad.run Keypad.reset (samples.take (t + 1))).debouncing r i = 0x40

instance (samples : List UInt8) (t r i : ℕ) : Decidable (ArmedAt samples t r i) :=
  inferInstanceAs (Decidable (_ ∧ _))

/-- The sixteen keys. -/
def keys : List (ℕ × ℕ) :=
  (List.range 4).flatMap fun r => (List.range 4).map fun i => (r, i)

/-- The keys armed in call `t`. -/
def armedKeys (samples : List UInt8) (t : ℕ) : List (ℕ × ℕ) :=
  keys.filter fun key => ArmedAt samples t key.1 key.2

/-- How many transitions of a cell from 0 to `0x40` there are, over all cells and calls. -/
def transitions (samples : List UInt8) : ℕ :=
  ((List.range samples.length).flatMap (armedKeys samples)).length

/-- How many characters other than 0 are returned. -/
def reported (samples : List UInt8) : ℕ :=
  (keypad.outputs Keypad.reset samples).countP fun c => c ≠ 0

/-- A key is armed exactly when its debouncer reports it, in a call of its row. -/
theorem armedAt_iff {samples : List UInt8} {t r i : ℕ} (hi : i < 4) :
    ArmedAt samples t r i ↔ t < samples.length ∧ r = t % 4 ∧ KeyReports samples t i := by
  refine and_congr_right fun ht => ?_
  have hx : samples[t]? = some samples[t] := List.getElem?_eq_getElem ht
  have hrow := keypad_atRow (samples.take t)
  rw [List.length_take, Nat.min_eq_left (Nat.le_of_lt ht)] at hrow
  obtain ⟨hcells, -⟩ := keypadScan_spec hrow samples[t]
  have hstep : keypad.run Keypad.reset (samples.take (t + 1)) =
      (keypadScan samples[t] (keypad.run Keypad.reset (samples.take t))).1 :=
    Mealy.run_take_succ keypad Keypad.reset hx
  rw [keyReports_iff hx hi, hstep, hcells r i hi]
  by_cases hr : r = t % 4
  · subst hr
    rw [if_pos rfl]
    simp only [true_and]
    refine and_congr_right fun hzero => ?_
    rw [hzero]
    cases keyPressed samples[t] i <;> decide
  · -- the cell of another row is left alone
    rw [if_neg hr]
    constructor
    · rintro ⟨hzero, h40⟩
      rw [hzero] at h40
      exact absurd h40 (by decide)
    · exact fun h => absurd h.1 hr

theorem mem_armedKeys {samples : List UInt8} {t r i : ℕ} :
    (r, i) ∈ armedKeys samples t ↔
      i < 4 ∧ t < samples.length ∧ r = t % 4 ∧ KeyReports samples t i := by
  have hkeys : (r, i) ∈ keys ↔ r < 4 ∧ i < 4 := by simp [keys]
  rw [armedKeys, List.mem_filter, hkeys, decide_eq_true_eq]
  constructor
  · rintro ⟨⟨-, hi⟩, harmed⟩
    exact ⟨hi, (armedAt_iff hi).mp harmed⟩
  · rintro ⟨hi, ht, hr, hrep⟩
    have hr4 : r < 4 := by omega
    exact ⟨⟨hr4, hi⟩, (armedAt_iff hi).mpr ⟨ht, hr, hrep⟩⟩

/-- The call arms a key exactly when it returns a character, and then that of the greatest
    column armed. -/
theorem returned_iff_armed (samples : List UInt8) {t : ℕ} {c : UInt8}
    (hc : (keypad.outputs Keypad.reset samples)[t]? = some c) :
    (c ≠ 0 ↔ armedKeys samples t ≠ []) ∧
      (c ≠ 0 → ∃ i < 4, ArmedAt samples t (t % 4) i ∧ c = lookupAt (t % 4 * 4 + i) ∧
        ∀ r j, (r, j) ∈ armedKeys samples t → r = t % 4 ∧ j ≤ i) := by
  have ht : t < samples.length := by
    have := (List.getElem?_eq_some_iff.mp hc).1
    rwa [Mealy.outputs_length] at this
  obtain ⟨ret, hret, hcases⟩ := keypad_returns samples ht
  obtain rfl : ret = c := Option.some.inj (hret.symm.trans hc)
  rcases hcases with ⟨i, hi, hrep, hlast, rfl⟩ | ⟨hnone, rfl⟩
  · have hmem : (t % 4, i) ∈ armedKeys samples t := mem_armedKeys.mpr ⟨hi, ht, rfl, hrep⟩
    have hne : lookupAt (4 * (t % 4) + i) ≠ 0 := lookupAt_ne_zero _ (by omega)
    refine ⟨⟨fun _ => List.ne_nil_of_mem hmem, fun _ => hne⟩, fun _ => ?_⟩
    refine ⟨i, hi, (armedAt_iff hi).mpr ⟨ht, rfl, hrep⟩, by rw [Nat.mul_comm 4], ?_⟩
    intro r j hj
    obtain ⟨hj4, -, hr, hrepj⟩ := mem_armedKeys.mp hj
    refine ⟨hr, ?_⟩
    -- a greater column would have overwritten `ret`
    by_contra hij
    exact hlast j (by omega) hj4 hrepj
  · have hempty : armedKeys samples t = [] := by
      rw [List.eq_nil_iff_forall_not_mem]
      rintro ⟨r, j⟩ hj
      obtain ⟨hj4, -, -, hrepj⟩ := mem_armedKeys.mp hj
      exact hnone j hj4 hrepj
    exact ⟨⟨fun h => absurd rfl h, fun h => absurd hempty h⟩, fun h => absurd rfl h⟩

/-- **One character per call**: for every sequence of samples seen by `keypad_scan` from
    reset, the calls that arm at least one key are as many as the characters returned;
    each of these is the character of the key armed in the greatest column, and all keys
    armed in that call are of its row.  So there are as many transitions as characters if
    and only if no call arms two keys. -/
theorem armed_keys_reported (samples : List UInt8) :
    (List.range samples.length).countP (fun t => !(armedKeys samples t).isEmpty) =
        reported samples ∧
    (∀ t c, (keypad.outputs Keypad.reset samples)[t]? = some c → c ≠ 0 →
      ∃ i < 4, ArmedAt samples t (t % 4) i ∧ c = lookupAt (t % 4 * 4 + i) ∧
        ∀ r j, (r, j) ∈ armedKeys samples t → r = t % 4 ∧ j ≤ i) ∧
    (transitions samples = reported samples ↔
      ∀ t < samples.length, (armedKeys samples t).length ≤ 1) := by
  have hcalls : (List.range samples.length).countP (fun t => !(armedKeys samples t).isEmpty) =
      reported samples := by
    rw [reported, countP_eq_countP_range _ (keypad.outputs Keypad.reset samples),
      Mealy.outputs_length]
    apply List.countP_congr
    intro t ht
    have hlt : t < (keypad.outputs Keypad.reset samples).length := by
      rw [Mealy.outputs_length]
      exact List.mem_range.mp ht
    have hc := List.getElem?_eq_getElem hlt
    rw [hc, Option.any_some, decide_eq_true_eq, (returned_iff_armed samples hc).1,
      Bool.not_eq_true', List.isEmpty_eq_false_iff]
  refine ⟨hcalls, fun t c hc hne => (returned_iff_armed samples hc).2 hne, ?_⟩
  rw [← hcalls, transitions, length_flatMap_eq_countP_iff]
  simp only [List.mem_range]

/-- Two keys of the first row in the first call: two cells are armed, one character is
    returned. -/
theorem not_transitions_eq_reported : transitions [0xFC] ≠ reported [0xFC] := by
  decide

end LoccFirmware.Input
