import LoccFirmware.Automata.Mealy

/-!
# A Debouncer with Lockout

The state machine for one mechanical contact, sampled at regular intervals.  The
first pressed sample is reported at once and starts a lockout, during which samples
are not looked at.  After the lockout the contact has to be sampled released before
it is reported again.

The state is a number: `0` is released, `1` is pressed and reported, and anything
above counts the rest of the lockout down.

## Main results

- `run_of_locked`: within the lockout no sample matters
- `run_pressed`, `run_released`: what steady samples do outside of it
- `run_hold`, `run_press`: a whole press is reported once, whatever the bounce
- `run_press_release`: if its release bounces too, it is reported once more exactly when
  the contact opens and closes again
-/

namespace LoccFirmware.Automata

/-- One sample: the next state, and whether the contact is reported as pressed. -/
def debounce (lockout s : ℕ) (pressed : Bool) : ℕ × Bool :=
  if s ≤ 1 then
    if pressed then
      if s = 0 then (lockout, true) else (s, false)
    else (0, false)
  else (s - 1, false)

/-- The debouncer as a machine from samples to reports. -/
def debouncer (lockout : ℕ) : Mealy ℕ Bool Bool where
  step := debounce lockout

variable {lockout s : ℕ}

@[simp] theorem debouncer_step (s : ℕ) (pressed : Bool) :
    (debouncer lockout).step s pressed = debounce lockout s pressed := rfl

@[simp] theorem debounce_zero_true : debounce lockout 0 true = (lockout, true) := rfl

@[simp] theorem debounce_one_true : debounce lockout 1 true = (1, false) := rfl

theorem debounce_false (hs : s ≤ 1) : debounce lockout s false = (0, false) := by
  simp [debounce, hs]

theorem debounce_of_locked (hs : 1 < s) (pressed : Bool) :
    debounce lockout s pressed = (s - 1, false) := by
  simp [debounce, Nat.not_le.mpr hs]

/-- A report is made exactly on a pressed sample of a contact seen released. -/
theorem debounce_reports_iff (s : ℕ) (pressed : Bool) :
    (debounce lockout s pressed).2 = true ↔ s = 0 ∧ pressed = true := by
  unfold debounce
  split_ifs with hle hp hzero
  · simp [hzero, hp]
  · simp [hzero]
  · simp [hp]
  · simp [show s ≠ 0 by omega]

/-- Within the lockout no sample matters: the state counts down and nothing is
    reported. -/
theorem run_of_locked (lockout : ℕ) {samples : List Bool} (h : samples.length < s) :
    (debouncer lockout).run s samples = s - samples.length ∧
      (debouncer lockout).outputs s samples = List.replicate samples.length false := by
  induction samples generalizing s with
  | nil => exact ⟨rfl, rfl⟩
  | cons x samples ih =>
    rw [List.length_cons] at h
    have hstep : debounce lockout s x = (s - 1, false) := debounce_of_locked (by omega) x
    obtain ⟨hrun, hout⟩ := ih (s := s - 1) (by omega)
    simp only [Mealy.run_cons, Mealy.outputs_cons, debouncer_step, hstep, hrun, hout,
      List.length_cons, List.replicate_succ, and_true]
    omega

/-- A contact already reported and held pressed stays as it is. -/
theorem run_pressed (lockout : ℕ) {samples : List Bool} (h : ∀ x ∈ samples, x = true) :
    (debouncer lockout).run 1 samples = 1 ∧
      (debouncer lockout).outputs 1 samples = List.replicate samples.length false := by
  induction samples with
  | nil => exact ⟨rfl, rfl⟩
  | cons x samples ih =>
    obtain rfl := h x List.mem_cons_self
    obtain ⟨hrun, hout⟩ := ih (fun y hy => h y (List.mem_cons_of_mem _ hy))
    simp [hrun, hout, List.replicate_succ]

/-- A contact out of its lockout and held released ends up released, unreported. -/
theorem run_released (lockout : ℕ) (hs : s ≤ 1) {samples : List Bool} (hne : samples ≠ [])
    (h : ∀ x ∈ samples, x = false) :
    (debouncer lockout).run s samples = 0 ∧
      (debouncer lockout).outputs s samples = List.replicate samples.length false := by
  induction samples generalizing s with
  | nil => exact absurd rfl hne
  | cons x samples ih =>
    obtain rfl := h x List.mem_cons_self
    have hstep : debounce lockout s false = (0, false) := debounce_false hs
    simp only [Mealy.run_cons, Mealy.outputs_cons, debouncer_step, hstep, List.length_cons,
      List.replicate_succ]
    -- from here on the state is 0 and stays there
    cases samples with
    | nil => exact ⟨rfl, rfl⟩
    | cons y samples =>
      obtain ⟨hrun, hout⟩ := ih (s := 0) (by omega) (by simp)
        (fun z hz => h z (List.mem_cons_of_mem _ hz))
      rw [hrun, hout]
      exact ⟨rfl, rfl⟩

theorem run_low (lockout : ℕ) (hs : s ≤ 1) {n : ℕ} (hn : 0 < n) :
    (debouncer lockout).run s (List.replicate n false) = 0 ∧
      (debouncer lockout).outputs s (List.replicate n false) = List.replicate n false := by
  have hne : List.replicate n false ≠ [] := by
    rw [Ne, List.replicate_eq_nil_iff]
    exact Nat.ne_of_gt hn
  have h := run_released lockout hs hne fun x hx => List.eq_of_mem_replicate hx
  rwa [List.length_replicate] at h

/-! ## Whole presses -/

/-- A press that lasts: the first sample is reported, the lockout swallows the bounce, and
    the contact is left pressed. -/
theorem run_hold (bounce high : List Bool) (hb : bounce.length + 1 = lockout)
    (hh : ∀ x ∈ high, x = true) :
    (debouncer lockout).run 0 (true :: (bounce ++ high)) = 1 ∧
      (debouncer lockout).outputs 0 (true :: (bounce ++ high)) =
        true :: List.replicate (bounce ++ high).length false := by
  -- the bounce ends one sample before the lockout does
  have hlocked : bounce.length < lockout := by omega
  obtain ⟨hrun, hout⟩ := run_of_locked lockout hlocked
  obtain ⟨hrun', hout'⟩ := run_pressed lockout hh
  simp only [Mealy.run_cons, Mealy.outputs_cons, debouncer_step, debounce_zero_true,
    Mealy.run_append, Mealy.outputs_append, hrun, hout, show lockout - bounce.length = 1 by omega,
    hrun', hout', List.length_append, List.replicate_append_replicate, and_self]

/-- A press and its release: reported once, at its first sample. -/
theorem run_press (bounce high low : List Bool) (hb : bounce.length + 1 = lockout)
    (hh : ∀ x ∈ high, x = true) (hne : low ≠ []) (hl : ∀ x ∈ low, x = false) :
    (debouncer lockout).run 0 (true :: (bounce ++ high ++ low)) = 0 ∧
      (debouncer lockout).outputs 0 (true :: (bounce ++ high ++ low)) =
        true :: List.replicate (bounce ++ high ++ low).length false := by
  obtain ⟨hrun, hout⟩ := run_hold bounce high hb hh
  obtain ⟨hrun', hout'⟩ := run_released lockout (Nat.le_refl 1) hne hl
  rw [← List.cons_append, Mealy.run_append, Mealy.outputs_append, hrun, hout, hrun', hout']
  simp [List.replicate_append_replicate, Nat.add_assoc]

/-! ## Presses with a release that bounces -/

/-- The contact opens and closes again. -/
def Chatters (samples : List Bool) : Prop :=
  ∃ a b : ℕ, a < b ∧ samples[a]? = some false ∧ samples[b]? = some true

theorem not_chatters_nil : ¬ Chatters [] := by
  rintro ⟨a, b, -, ha, -⟩
  simp at ha

theorem chatters_true_cons (samples : List Bool) :
    Chatters (true :: samples) ↔ Chatters samples := by
  constructor
  · rintro ⟨a, b, hab, ha, hb⟩
    cases a with
    | zero => simp at ha
    | succ a =>
      cases b with
      | zero => omega
      | succ b => exact ⟨a, b, by omega, by simpa using ha, by simpa using hb⟩
  · rintro ⟨a, b, hab, ha, hb⟩
    exact ⟨a + 1, b + 1, by omega, by simpa using ha, by simpa using hb⟩

theorem chatters_false_cons (samples : List Bool) :
    Chatters (false :: samples) ↔ true ∈ samples := by
  constructor
  · rintro ⟨a, b, hab, -, hb⟩
    cases b with
    | zero => omega
    | succ b => exact List.mem_of_getElem? (by simpa using hb)
  · intro hmem
    obtain ⟨b, hb⟩ := List.mem_iff_getElem?.mp hmem
    exact ⟨0, b + 1, by omega, by simp, by simpa using hb⟩

instance decidableChatters : (samples : List Bool) → Decidable (Chatters samples)
  | [] => isFalse not_chatters_nil
  | true :: samples =>
    @decidable_of_iff _ (Chatters samples) (chatters_true_cons samples).symm
      (decidableChatters samples)
  | false :: samples => decidable_of_iff (true ∈ samples) (chatters_false_cons samples).symm

/-- A lockout that ends with the contact released leaves it so, whatever came before. -/
theorem run_locked_released (lockout : ℕ) {bounce : List Bool} {n : ℕ} (hb : bounce.length < s)
    (hn : s ≤ bounce.length + n) :
    (debouncer lockout).run s (bounce ++ List.replicate n false) = 0 ∧
      (debouncer lockout).outputs s (bounce ++ List.replicate n false) =
        List.replicate (bounce.length + n) false := by
  -- all but the last sample of the lockout, and what is left after it
  obtain ⟨k, m, hk, hm⟩ : ∃ k m, bounce.length + k + 1 = s ∧ n = k + (m + 1) :=
    ⟨s - 1 - bounce.length, n - (s - 1 - bounce.length) - 1, by omega, by omega⟩
  have hlen : (bounce ++ List.replicate k false).length + 1 = s := by simp; omega
  have hlocked : (bounce ++ List.replicate k false).length < s := by omega
  obtain ⟨hrun, hout⟩ := run_of_locked lockout hlocked
  obtain ⟨hrun', hout'⟩ := run_low lockout (Nat.le_refl 1) (Nat.succ_pos m)
  have hone : s - (bounce ++ List.replicate k false).length = 1 := by omega
  rw [hm, ← List.replicate_append_replicate, ← List.append_assoc, Mealy.run_append,
    Mealy.outputs_append, hrun, hout, hone, hrun', hout', List.replicate_append_replicate]
  simp [Nat.add_assoc]

/-- From released: a short bounce and then rest is reported if it has a pressed sample. -/
theorem run_bounce_released (bounce : List Bool) {n : ℕ} (hb : bounce.length ≤ lockout)
    (hn : lockout ≤ n) :
    (debouncer lockout).run 0 (bounce ++ List.replicate n false) = 0 ∧
      ((debouncer lockout).outputs 0 (bounce ++ List.replicate n false)).count true =
        if true ∈ bounce then 1 else 0 := by
  induction bounce with
  | nil =>
    cases n with
    | zero => exact ⟨rfl, rfl⟩
    | succ n =>
      obtain ⟨hrun, hout⟩ := run_low lockout (Nat.zero_le 1) (Nat.succ_pos n)
      rw [List.nil_append, hrun, hout]
      exact ⟨rfl, by simp [List.count_replicate]⟩
  | cons x bounce ih =>
    rw [List.length_cons] at hb
    cases x with
    | true =>
      -- the report locks out the rest of the bounce
      have hshort : bounce.length < lockout := hb
      have hrest : lockout ≤ bounce.length + n := Nat.le_add_left_of_le hn
      obtain ⟨hrun, hout⟩ := run_locked_released lockout hshort hrest
      rw [List.cons_append, Mealy.run_cons, Mealy.outputs_cons, debouncer_step,
        debounce_zero_true, hrun, hout, List.count_cons_self, List.count_replicate]
      exact ⟨rfl, by simp⟩
    | false =>
      obtain ⟨hrun, hout⟩ := ih (by omega)
      rw [List.cons_append, Mealy.run_cons, Mealy.outputs_cons, debouncer_step,
        debounce_false (Nat.zero_le 1), hrun, List.count_cons_of_ne (by decide), hout]
      exact ⟨rfl, by simp⟩

/-- From pressed: a release with a short bounce is reported as a press if the contact opens
    and closes again in it. -/
theorem run_release (release : List Bool) {n : ℕ} (hr : release.length ≤ lockout)
    (hn : lockout ≤ n) (hpos : 0 < n) :
    (debouncer lockout).run 1 (release ++ List.replicate n false) = 0 ∧
      ((debouncer lockout).outputs 1 (release ++ List.replicate n false)).count true =
        if Chatters release then 1 else 0 := by
  induction release with
  | nil =>
    obtain ⟨hrun, hout⟩ := run_low lockout (Nat.le_refl 1) hpos
    rw [List.nil_append, hrun, hout, if_neg not_chatters_nil]
    exact ⟨rfl, by simp [List.count_replicate]⟩
  | cons x release ih =>
    rw [List.length_cons] at hr
    cases x with
    | true =>
      obtain ⟨hrun, hout⟩ := ih (by omega)
      rw [List.cons_append, Mealy.run_cons, Mealy.outputs_cons, debouncer_step,
        debounce_one_true, hrun, List.count_cons_of_ne (by decide), hout]
      exact ⟨rfl, by simp [chatters_true_cons]⟩
    | false =>
      -- open for the first time: from here on any pressed sample is a new press
      obtain ⟨hrun, hout⟩ := run_bounce_released release (Nat.le_of_succ_le hr) hn
      rw [List.cons_append, Mealy.run_cons, Mealy.outputs_cons, debouncer_step,
        debounce_false (Nat.le_refl 1), hrun, List.count_cons_of_ne (by decide), hout]
      exact ⟨rfl, by simp [chatters_false_cons]⟩

/-- **A press and its release, both with bounce**: reported once, and once more exactly if
    the contact opens and closes again while it is released. -/
theorem run_press_release (bounce release : List Bool) {held n : ℕ}
    (hb : bounce.length < lockout) (hh : lockout ≤ bounce.length + held + 1)
    (hr : release.length ≤ lockout) (hn : lockout ≤ n) :
    (debouncer lockout).run 0
        (true :: (bounce ++ List.replicate held true ++ release ++ List.replicate n false)) = 0 ∧
      ((debouncer lockout).outputs 0 (true ::
        (bounce ++ List.replicate held true ++ release ++ List.replicate n false))).count true =
        1 + if Chatters release then 1 else 0 := by
  -- the lockout ends among the pressed samples
  obtain ⟨k, m, hk, hm⟩ : ∃ k m, bounce.length + k + 1 = lockout ∧ held = k + m :=
    ⟨lockout - 1 - bounce.length, held - (lockout - 1 - bounce.length), by omega, by omega⟩
  have hsplit : bounce ++ List.replicate held true =
      (bounce ++ List.replicate k true) ++ List.replicate m true := by
    rw [hm, ← List.replicate_append_replicate, List.append_assoc]
  have hlen : (bounce ++ List.replicate k true).length + 1 = lockout := by simp; omega
  obtain ⟨hrun, hout⟩ := run_hold _ (List.replicate m true) hlen
    fun x hx => List.eq_of_mem_replicate hx
  rw [← hsplit] at hrun hout
  obtain ⟨hrun', hout'⟩ := run_release release hr hn (by omega)
  rw [List.append_assoc, ← List.cons_append, Mealy.run_append, Mealy.outputs_append, hrun, hout,
    hrun', List.count_append, hout', List.count_cons_self, List.count_replicate]
  exact ⟨rfl, by simp⟩

end LoccFirmware.Automata
