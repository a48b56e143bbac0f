import LoccFirmware.Input.HookSwitch
import LoccFirmware.Automata.Contacts
import LoccFirmware.Automata.EventCounts

/-!
# The Events of `dial_scan`

Three things can happen in a call of `dial_scan`: an impulse is counted, a digit is made,
the hook is reported.  The first two happen exactly at the rises of their contacts, with
the lockouts as dead times.  The hook is not a contact of this kind, since both of its
edges are reported, but its events are edges too and just as far apart.

So none of the three can repeat by itself, and none follows another of its kind too
soon.  They can coincide, though: all three blocks write the one variable `rv`, the hook
block last, and a digit made in the same call is lost.
-/

namespace LoccFirmware.Input

open LoccFirmware.Automata

/-! ## Events of a call -/

/-- The call takes one of the two branches that report the hook. -/
def FiresHook (pinc : UInt8) (d : Dial) : Prop :=
  (d.stateHangup = 0 ∧ hangupHigh pinc = true) ∨ (d.stateHangup = 1 ∧ hangupHigh pinc = false)

instance (pinc : UInt8) (d : Dial) : Decidable (FiresHook pinc d) :=
  inferInstanceAs (Decidable (_ ∨ _))

/-- Call `t` from reset is one of those that `p` describes, by the sample it reads and the
statics it finds. -/
def CallAt (p : UInt8 → Dial → Prop) (samples : List UInt8) (t : ℕ) : Prop :=
  ∃ x ∈ samples[t]?, p x (scanned (samples.take t))

instance (p : UInt8 → Dial → Prop) [∀ x d, Decidable (p x d)] (samples : List UInt8) (t : ℕ) :
    Decidable (CallAt p samples t) :=
  inferInstanceAs (Decidable (∃ x ∈ samples[t]?, p x (scanned (samples.take t))))

/-- Call `t` executes `dial_counter++`. -/
def CountsImpulseAt : List UInt8 → ℕ → Prop := CallAt CountsImpulse

/-- Call `t` takes the digit branch. -/
def FiresDigitAt : List UInt8 → ℕ → Prop := CallAt FiresDigit

/-- Call `t` takes a hook branch. -/
def FiresHookAt : List UInt8 → ℕ → Prop := CallAt FiresHook

instance (samples : List UInt8) (t : ℕ) : Decidable (CountsImpulseAt samples t) :=
  inferInstanceAs (Decidable (CallAt CountsImpulse samples t))

instance (samples : List UInt8) (t : ℕ) : Decidable (FiresDigitAt samples t) :=
  inferInstanceAs (Decidable (CallAt FiresDigit samples t))

instance (samples : List UInt8) (t : ℕ) : Decidable (FiresHookAt samples t) :=
  inferInstanceAs (Decidable (CallAt FiresHook samples t))

theorem callAt_iff {p : UInt8 → Dial → Prop} {samples : List UInt8} {t : ℕ} {x : UInt8}
    (hx : samples[t]? = some x) :
    CallAt p samples t ↔ p x (scanned (samples.take t)) := by
  rw [CallAt, hx]
  simp

/-! ## Impulses and digits are rises -/

section Rises

variable (samples : List UInt8)

theorem scanned_stateImpulse :
    (scanned samples).stateImpulse.toNat = (debouncer 0x40).run 0 (samples.map impulseHigh) :=
  Mealy.run_map (M := dial) (N := debouncer 0x40) (f := fun d => d.stateImpulse.toNat)
    (fun d x => dialScan_stateImpulse x d) Dial.reset samples

theorem scanned_stateDialing :
    (scanned samples).stateDialing.toNat = (debouncer 0x80).run 0 (samples.map dialHigh) :=
  Mealy.run_map (M := dial) (N := debouncer 0x80) (f := fun d => d.stateDialing.toNat)
    (fun d x => dialScan_stateDialing x d) Dial.reset samples

/-- An event that a block makes on a high sample in its state 0 is a rise of its contact. -/
theorem callAt_iff_rises {p : UInt8 → Dial → Prop} (cell : Dial → UInt8) {high : UInt8 → Bool}
    {lockout : ℕ} (hp : ∀ x d, p x d ↔ cell d = 0 ∧ high x = true) (hl : 0 < lockout)
    (hcell : ∀ samples : List UInt8,
      (cell (scanned samples)).toNat = (debouncer lockout).run 0 (samples.map high)) (t : ℕ) :
    CallAt p samples t ↔ Rises lockout (samples.map high) t := by
  rw [← reportsAt_iff_rises hl, reportsAt_iff_run, List.getElem?_map, ← List.map_take, ← hcell]
  cases hx : samples[t]? with
  | none => simp [CallAt, hx]
  | some x =>
    rw [callAt_iff hx, hp, eq_zero_iff_toNat, Option.map_some, Option.some.injEq, and_comm]

theorem countsImpulseAt_iff_rises (t : ℕ) :
    CountsImpulseAt samples t ↔ Rises 0x40 (samples.map impulseHigh) t :=
  callAt_iff_rises samples Dial.stateImpulse (fun _ _ => Iff.rfl) (by decide)
    scanned_stateImpulse t

theorem firesDigitAt_iff_rises (t : ℕ) :
    FiresDigitAt samples t ↔ Rises 0x80 (samples.map dialHigh) t :=
  callAt_iff_rises samples Dial.stateDialing (fun _ _ => Iff.rfl) (by decide)
    scanned_stateDialing t

/-- The low sample between two rises, as a sample of the port. -/
theorem exists_low_sample {high : UInt8 → Bool} {dead s t : ℕ}
    (hs : Rises dead (samples.map high) s) (ht : Rises dead (samples.map high) t) (hst : s < t) :
    ∃ v x, s + dead ≤ v ∧ v < t ∧ samples[v]? = some x ∧ high x = false := by
  obtain ⟨v, hsv, hvt, hv⟩ := ht.low_between hs hst
  rw [List.getElem?_map, Option.map_eq_some_iff] at hv
  obtain ⟨x, hx, hlow⟩ := hv
  exact ⟨v, x, hsv, hvt, hx, hlow⟩

end Rises

/-! ## The hook -/

theorem firesHook_iff (pinc : UInt8) (d : Dial) :
    FiresHook pinc d ↔ (hookStep d.stateHangup.toNat (hangupHigh pinc)).2.isSome = true := by
  have hone : d.stateHangup = 1 ↔ d.stateHangup.toNat = 1 := by
    rw [← UInt8.toNat_inj]
    rfl
  rw [FiresHook, eq_zero_iff_toNat, hone]
  unfold hookStep
  cases hangupHigh pinc <;> split_ifs <;> simp_all <;> omega

/-- The hook block's state and level, at an event of the hook. -/
theorem firesHookAt_iff (samples : List UInt8) (t : ℕ) :
    FiresHookAt samples t ↔ ∃ b, (hook.outputs 0 (samples.map hangupHigh))[t]? = some (some b) := by
  rw [Mealy.outputs_getElem?, List.getElem?_map, ← List.map_take, ← scanned_stateHangup]
  cases hx : samples[t]? with
  | none => simp [FiresHookAt, CallAt, hx]
  | some x =>
    rw [FiresHookAt, callAt_iff hx, firesHook_iff, Option.isSome_iff_exists]
    simp

/-- Every report lies 255 calls back, or the wait that it started is still on. -/
def HookSpaced (pins : List Bool) (s : ℕ) (os : List (Option Bool)) : Prop :=
  os.length = pins.length ∧ ∀ p b, os[p]? = some (some b) →
    p + 255 ≤ pins.length ∨ (2 ≤ s ∧ p + 256 ≤ pins.length + s)

theorem HookSpaced.step {pins : List Bool} {s : ℕ} {os : List (Option Bool)}
    (h : HookSpaced pins s os) (high : Bool) :
    HookSpaced (pins ++ [high]) (hookStep s high).1 (os ++ [(hookStep s high).2]) := by
  obtain ⟨hlen, hspaced⟩ := h
  refine ⟨by simp [hlen], fun p b hp => ?_⟩
  rw [List.length_append, List.length_singleton]
  rcases getElem?_concat_eq_some_iff.mp hp with hold | ⟨rfl, hnew⟩
  · -- an earlier report is one call further back
    have hback := hspaced p b hold
    unfold hookStep
    split_ifs <;> simp only <;> omega
  · -- a report starts the wait
    rw [hlen]
    unfold hookStep at hnew ⊢
    split_ifs at hnew ⊢ <;> simp_all

theorem hookSpaced (pins : List Bool) : HookSpaced pins (hook.run 0 pins) (hook.outputs 0 pins) :=
  Mealy.history_induction (M := hook) (s := 0) (P := HookSpaced)
    ⟨rfl, fun p b hp => by simp at hp⟩ (fun _ i h => h.step i) pins

/-- A report is made in a settled state, on the other level. -/
theorem hook_outputs_eq_some_iff {pins : List Bool} {t : ℕ} {b : Bool} :
    (hook.outputs 0 pins)[t]? = some (some b) ↔
      pins[t]? = some b ∧ hook.run 0 (pins.take t) = if b then 0 else 1 := by
  rw [Mealy.outputs_getElem?, Option.map_eq_some_iff]
  constructor
  · rintro ⟨x, hx, hstep⟩
    rw [hook_step] at hstep
    unfold hookStep at hstep
    split_ifs at hstep <;> simp_all
  · rintro ⟨hx, hrun⟩
    refine ⟨b, hx, ?_⟩
    rw [hrun]
    cases b <;> rfl

/-- Two events of the hook are 255 calls apart. -/
theorem hook_separated {pins : List Bool} {s t : ℕ} {b c : Bool}
    (hs : (hook.outputs 0 pins)[s]? = some (some b))
    (ht : (hook.outputs 0 pins)[t]? = some (some c)) (hst : s < t) : s + 255 ≤ t := by
  obtain ⟨hx, hrun⟩ := hook_outputs_eq_some_iff.mp ht
  obtain ⟨-, hspaced⟩ := hookSpaced (pins.take t)
  have hlen : (pins.take t).length = t := by
    have := (List.getElem?_eq_some_iff.mp hx).1
    rw [List.length_take]
    omega
  rw [Mealy.outputs_take, hlen, hrun] at hspaced
  rcases hspaced s b (by rw [List.getElem?_take_of_lt hst]; exact hs) with hfar | ⟨h2, -⟩
  · exact hfar
  · -- in a settled state no wait is on
    cases c <;> simp at h2

/-- The hook is settled only on the level of its last sample. -/
theorem hookStep_settled (s : ℕ) (x b : Bool) (h : (hookStep s x).1 = if b then 0 else 1) :
    x = !b := by
  unfold hookStep at h
  split_ifs at h <;> simp_all
  omega

/-- At an event of the hook the pin has just changed, unless it is the very first call. -/
theorem hook_edge {pins : List Bool} {t : ℕ} {b : Bool}
    (ht : (hook.outputs 0 pins)[t + 1]? = some (some b)) : pins[t]? = some !b := by
  obtain ⟨hx, hrun⟩ := hook_outputs_eq_some_iff.mp ht
  have hlt : t < pins.length := by
    have := (List.getElem?_eq_some_iff.mp hx).1
    omega
  have hsome : pins[t]? = some pins[t] := List.getElem?_eq_getElem hlt
  rw [Mealy.run_take_succ hook 0 hsome] at hrun
  rw [hsome, hookStep_settled _ _ _ hrun]

/-- A hook that stands still from call `n` on is reported in call `n`, if at all. -/
theorem hook_at_of_constant {pins : List Bool} {n t : ℕ} {b c : Bool}
    (hconst : ∀ (v : ℕ) (x : Bool), n ≤ v → pins[v]? = some x → x = b)
    (ht : (hook.outputs 0 pins)[t]? = some (some c)) (hnt : n ≤ t) : t = n := by
  rcases Nat.lt_or_eq_of_le hnt with hlt | heq
  · obtain ⟨k, rfl⟩ : ∃ k, t = k + 1 := ⟨t - 1, by omega⟩
    -- the pin changes from one call to the next, within the stretch
    have hnow := hconst (k + 1) c hnt (hook_outputs_eq_some_iff.mp ht).1
    have hbefore := hconst k (!c) (by omega) (hook_edge ht)
    rw [← hnow] at hbefore
    cases c <;> simp at hbefore
  · exact heq.symm

/-! ## Rate limits -/

/-- A pin stands still during the given samples. -/
def Steady (high : UInt8 → Bool) (rest : List UInt8) : Prop :=
  ∀ x ∈ rest, ∀ y ∈ rest, high x = high y

theorem Steady.exists_level {high : UInt8 → Bool} {rest : List UInt8} (h : Steady high rest)
    (samples : List UInt8) :
    ∃ b, ∀ (v : ℕ) (x : Bool), samples.length ≤ v →
      ((samples ++ rest).map high)[v]? = some x → x = b := by
  have hmem : ∀ (v : ℕ) (x : Bool), samples.length ≤ v →
      ((samples ++ rest).map high)[v]? = some x → ∃ y ∈ rest, high y = x := by
    intro v x hv hx
    rw [List.getElem?_map, List.getElem?_append_right hv, Option.map_eq_some_iff] at hx
    obtain ⟨y, hy, rfl⟩ := hx
    exact ⟨y, List.mem_of_getElem? hy, rfl⟩
  cases rest with
  | nil => exact ⟨true, fun v x hv hx => by obtain ⟨y, hy, -⟩ := hmem v x hv hx; cases hy⟩
  | cons z rest =>
    refine ⟨high z, fun v x hv hx => ?_⟩
    obtain ⟨y, hy, rfl⟩ := hmem v x hv hx
    exact h y hy z List.mem_cons_self

theorem rises_atMostOnce {high : UInt8 → Bool} {rest : List UInt8} (h : Steady high rest)
    (samples : List UInt8) (dead : ℕ) :
    AtMostOnceFrom samples.length (Rises dead ((samples ++ rest).map high)) := by
  intro s t hs ht hrs hrt
  obtain ⟨b, hconst⟩ := h.exists_level samples
  exact Rises.unique_of_constant hconst hrs hrt hs ht

/-- **Rate limits**: for every sequence of samples seen by `dial_scan` from reset, two
    impulse counts are at least 65 calls apart, with the impulse contact low in between
    but not before 64 calls are over; two digits are at least 129 calls apart, with the
    dial contact low in between but not before 128 calls are over; two hook events are at
    least 255 calls apart.  And from every state reached, a pin that stands still from
    then on makes at most one further event. -/
theorem dial_rate_limited (samples : List UInt8) :
    (∀ s t, s < t → CountsImpulseAt samples s → CountsImpulseAt samples t →
      s + 65 ≤ t ∧
        ∃ v x, s + 64 ≤ v ∧ v < t ∧ samples[v]? = some x ∧ impulseHigh x = false) ∧
    (∀ s t, s < t → FiresDigitAt samples s → FiresDigitAt samples t →
      s + 129 ≤ t ∧
        ∃ v x, s + 128 ≤ v ∧ v < t ∧ samples[v]? = some x ∧ dialHigh x = false) ∧
    (∀ s t, s < t → FiresHookAt samples s → FiresHookAt samples t → s + 255 ≤ t) ∧
    (∀ rest, Steady impulseHigh rest →
      AtMostOnceFrom samples.length (CountsImpulseAt (samples ++ rest))) ∧
    (∀ rest, Steady dialHigh rest →
      AtMostOnceFrom samples.length (FiresDigitAt (samples ++ rest))) ∧
    (∀ rest, Steady hangupHigh rest →
      AtMostOnceFrom samples.length (FiresHookAt (samples ++ rest))) := by
  refine ⟨fun s t hst hs ht => ?_, fun s t hst hs ht => ?_, fun s t hst hs ht => ?_,
    fun rest hrest s t hns hnt hs ht => ?_, fun rest hrest s t hns hnt hs ht => ?_,
    fun rest hrest s t hns hnt hs ht => ?_⟩
  · rw [countsImpulseAt_iff_rises] at hs ht
    exact ⟨ht.separated hs hst, exists_low_sample samples hs ht hst⟩
  · rw [firesDigitAt_iff_rises] at hs ht
    exact ⟨ht.separated hs hst, exists_low_sample samples hs ht hst⟩
  · rw [firesHookAt_iff] at hs ht
    obtain ⟨b, hb⟩ := hs
    obtain ⟨c, hc⟩ := ht
    exact hook_separated hb hc hst
  · rw [countsImpulseAt_iff_rises] at hs ht
    exact rises_atMostOnce hrest samples 0x40 s t hns hnt hs ht
  · rw [firesDigitAt_iff_rises] at hs ht
    exact rises_atMostOnce hrest samples 0x80 s t hns hnt hs ht
  · -- the only call in which the hook can be reported is the first one of the stretch
    obtain ⟨b, hconst⟩ := hrest.exists_level samples
    rw [firesHookAt_iff] at hs ht
    obtain ⟨c, hc⟩ := hs
    obtain ⟨d, hd⟩ := ht
    rw [hook_at_of_constant hconst hc hns, hook_at_of_constant hconst hd hnt]

/-! ## Lost digits -/

/-- The digits among the returned characters. -/
def digitChars (rs : List UInt8) : List UInt8 :=
  rs.filter fun c => '0'.toUInt8 ≤ c ∧ c ≤ '9'.toUInt8

/-- As many digits are returned as the digit branch is taken, and as many hook characters as
the hook branches are. -/
structure NoEventLost (samples : List UInt8) : Prop where
  digits : (digitChars (scans samples)).length =
    (List.range samples.length).countP fun t => FiresDigitAt samples t
  hooks : (hookChars (scans samples)).length =
    (List.range samples.length).countP fun t => FiresHookAt samples t

/-- A digit is returned if the digit branch is taken and no hook branch after it. -/
theorem dialScan_digit_iff (pinc : UInt8) (d : Dial) :
    ('0'.toUInt8 ≤ (dialScan pinc d).2 ∧ (dialScan pinc d).2 ≤ '9'.toUInt8) ↔
      FiresDigit pinc d ∧ ¬ FiresHook pinc d := by
  rw [dialScan_returns, firesHook_iff]
  -- with a hook report the character is `H` or `h`, without one a digit or 0
  rcases (hookStep d.stateHangup.toNat (hangupHigh pinc)).2 with _ | _ | _
  · by_cases hfires : FiresDigit pinc d
    · simpa [hfires] using digitChar_range (countedImpulses pinc d)
    · simp only [hfires, if_false, false_and, iff_false]
      decide
  · simp only [Option.isSome_some, not_true, and_false, iff_false]
    decide
  · simp only [Option.isSome_some, not_true, and_false, iff_false]
    decide

theorem dialScan_hook_iff (pinc : UInt8) (d : Dial) :
    ((dialScan pinc d).2 = 'H'.toUInt8 ∨ (dialScan pinc d).2 = 'h'.toUInt8) ↔
      FiresHook pinc d := by
  have hreport : ∀ c : UInt8,
      (c = 'H'.toUInt8 ∨ c = 'h'.toUInt8) ↔ (hookReport c).isSome = true := by
    intro c
    unfold hookReport
    split_ifs <;> simp_all
  rw [hreport, hookReport_dialScan, firesHook_iff]

/-- Characters of a kind that the calls described by `p` return, counted by call. -/
theorem length_filter_scans {p : UInt8 → Dial → Prop} [∀ x d, Decidable (p x d)]
    {kind : UInt8 → Prop} [DecidablePred kind]
    (hkind : ∀ x d, kind (dialScan x d).2 ↔ p x d) (samples : List UInt8) :
    ((scans samples).filter fun c => kind c).length =
      (List.range samples.length).countP fun t => CallAt p samples t := by
  rw [← List.countP_eq_length_filter, countP_eq_countP_range, scans, Mealy.outputs_length]
  apply List.countP_congr
  intro t ht
  have hlt : t < samples.length := List.mem_range.mp ht
  have hx : samples[t]? = some samples[t] := List.getElem?_eq_getElem hlt
  rw [Mealy.outputs_getElem?, hx, Option.map_some, Option.any_some, decide_eq_true_eq,
    decide_eq_true_eq, callAt_iff hx]
  exact hkind _ _

/-- **Digits are lost to the hook**: for every sequence of samples seen by `dial_scan` from
    reset, every digit and every hook event is returned if and only if no call takes the
    digit branch and a hook branch. -/
theorem noEventLost_iff (samples : List UInt8) :
    NoEventLost samples ↔ ∀ t, ¬ (FiresDigitAt samples t ∧ FiresHookAt samples t) := by
  have hhooks : (hookChars (scans samples)).length =
      (List.range samples.length).countP fun t => FiresHookAt samples t :=
    length_filter_scans dialScan_hook_iff samples
  have hdigits : (digitChars (scans samples)).length =
      (List.range samples.length).countP fun t =>
        CallAt (fun x d => FiresDigit x d ∧ ¬ FiresHook x d) samples t :=
    length_filter_scans dialScan_digit_iff samples
  -- a call that makes a digit returns it unless it takes a hook branch as well
  have hboth : ∀ t, CallAt (fun x d => FiresDigit x d ∧ ¬ FiresHook x d) samples t ↔
      FiresDigitAt samples t ∧ ¬ FiresHookAt samples t := by
    intro t
    cases hx : samples[t]? with
    | none => simp [FiresDigitAt, FiresHookAt, CallAt, hx]
    | some x => rw [FiresDigitAt, FiresHookAt, callAt_iff hx, callAt_iff hx, callAt_iff hx]
  have hcount := countP_eq_iff_of_imp (l := List.range samples.length)
    (q := fun t => CallAt (fun x d => FiresDigit x d ∧ ¬ FiresHook x d) samples t)
    (p := fun t => FiresDigitAt samples t)
    (fun t _ hq => by simpa using ((hboth t).mp (by simpa using hq)).1)
  constructor
  · intro h t ⟨hdigit, hhook⟩
    have ht : t < samples.length := by
      obtain ⟨x, hx, -⟩ := hdigit
      exact (List.getElem?_eq_some_iff.mp hx).1
    have hreturned := hcount.mp (hdigits.symm.trans h.digits) t (List.mem_range.mpr ht)
      (by simpa using hdigit)
    exact ((hboth t).mp (by simpa using hreturned)).2 hhook
  · intro h
    refine ⟨hdigits.trans (hcount.mpr fun t _ hdigit => ?_), hhooks⟩
    have hdigit' : FiresDigitAt samples t := by simpa using hdigit
    simpa using (hboth t).mpr ⟨hdigit', fun hhook => h t ⟨hdigit', hhook⟩⟩

/-- The dial contact at rest and the hook lifted in the first call: `H` is returned, and the
    digit made before it is gone. -/
theorem not_noEventLost_first_call : ¬ NoEventLost [0x30] := by
  intro h
  exact absurd h.digits (by decide)

end LoccFirmware.Input
