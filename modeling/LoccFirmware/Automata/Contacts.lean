import LoccFirmware.Automata.Debouncer

/-!
# Contacts Sampled over Time

What a debouncer with lockout is for, said without the debouncer.  A contact is a list of
samples, and a *rise* of it is a high sample that counts: after every earlier rise the
contact has been low again once the dead time of that rise was over.  Rises are far
apart and never repeat while the contact is held.

The debouncer reports exactly the rises, so that whatever is known about rises is known
about it.

## Main definitions

- `Rises`: the positions at which a contact rises
- `ReportsAt`: the positions at which a debouncer reports

## Main results

- `reportsAt_iff_rises`: a debouncer reports the rises of its contact
- `Rises.separated`: two rises are more than the dead time apart
- `Rises.unique_of_constant`: a contact that is held rises once at most
-/

namespace LoccFirmware.Automata

/-! ## Rises -/

/-- The contact rises at position `t`: it is high there, and low somewhere between the end
of the dead time of any earlier rise and `t`. -/
def Rises (dead : ℕ) (pins : List Bool) (t : ℕ) : Prop :=
  pins[t]? = some true ∧ ∀ s, (_ : s < t) → Rises dead pins s →
    ∃ v, s + dead ≤ v ∧ v < t ∧ pins[v]? = some false
termination_by t

variable {dead : ℕ} {pins : List Bool} {s t : ℕ}

theorem rises_iff :
    Rises dead pins t ↔ pins[t]? = some true ∧ ∀ s < t, Rises dead pins s →
      ∃ v, s + dead ≤ v ∧ v < t ∧ pins[v]? = some false := by
  rw [Rises]

/-- Between two rises the contact is low after the dead time of the first. -/
theorem Rises.low_between (ht : Rises dead pins t) (hs : Rises dead pins s) (hst : s < t) :
    ∃ v, s + dead ≤ v ∧ v < t ∧ pins[v]? = some false :=
  (rises_iff.mp ht).2 s hst hs

theorem Rises.separated (ht : Rises dead pins t) (hs : Rises dead pins s) (hst : s < t) :
    s + dead + 1 ≤ t := by
  obtain ⟨v, hsv, hvt, -⟩ := ht.low_between hs hst
  omega

/-- A contact that is high has risen. -/
theorem exists_rises_of_high (dead : ℕ) (h : pins[t]? = some true) :
    ∃ u, u ≤ t ∧ Rises dead pins u := by
  by_cases hearlier : ∃ s, s < t ∧ Rises dead pins s
  · obtain ⟨s, hs, hrise⟩ := hearlier
    exact ⟨s, Nat.le_of_lt hs, hrise⟩
  · exact ⟨t, Nat.le_refl t, rises_iff.mpr ⟨h, fun s hs hrise => absurd ⟨s, hs, hrise⟩ hearlier⟩⟩

/-- A contact that stands still from position `n` on rises at most once from there on. -/
theorem Rises.unique_of_constant {n : ℕ} {b : Bool}
    (hconst : ∀ (v : ℕ) (x : Bool), n ≤ v → pins[v]? = some x → x = b) (hs : Rises dead pins s)
    (ht : Rises dead pins t) (hns : n ≤ s) (hnt : n ≤ t) : s = t := by
  -- the sample of a rise is high, and between two rises there is a low one
  have hb : true = b := hconst s true hns (rises_iff.mp hs).1
  have hlow : ∀ v, n ≤ v → pins[v]? ≠ some false := by
    intro v hv hfalse
    exact absurd ((hconst v false hv hfalse).trans hb.symm) (by decide)
  rcases Nat.lt_trichotomy s t with hst | rfl | hts
  · obtain ⟨v, hsv, -, hv⟩ := ht.low_between hs hst
    exact absurd hv (hlow v (by omega))
  · rfl
  · obtain ⟨v, htv, -, hv⟩ := hs.low_between ht hts
    exact absurd hv (hlow v (by omega))

/-! ## Reports -/

/-- The debouncer of a contact seen released at first reports at position `t`. -/
def ReportsAt (lockout : ℕ) (pins : List Bool) (t : ℕ) : Prop :=
  ((debouncer lockout).outputs 0 pins)[t]? = some true

/-- A report is made on a high sample that finds the state 0. -/
theorem reportsAt_iff_run {lockout : ℕ} :
    ReportsAt lockout pins t ↔
      pins[t]? = some true ∧ (debouncer lockout).run 0 (pins.take t) = 0 := by
  rw [ReportsAt, Mealy.outputs_getElem?, Option.map_eq_some_iff]
  simp only [debouncer_step, debounce_reports_iff]
  constructor
  · rintro ⟨x, hx, hzero, rfl⟩
    exact ⟨hx, hzero⟩
  · rintro ⟨hx, hzero⟩
    exact ⟨true, hx, hzero, rfl⟩

/-! ## What the state remembers -/

/-- In state `s > 0`: the last report was at position `p`, and `s` counts the rest of its
lockout, or the contact has been high ever since. -/
structure Locked (lockout : ℕ) (pins : List Bool) (os : List Bool) (p s : ℕ) : Prop where
  reported : os[p]? = some true
  last : ∀ q, os[q]? = some true → q ≤ p
  waited : p + lockout < pins.length + s
  counting : 1 < s → pins.length + s ≤ p + lockout + 1
  held : ∀ v, p + lockout ≤ v → pins[v]? ≠ some false

/-- What a history of samples and reports says about the state it led to. -/
structure DebounceHistory (lockout : ℕ) (pins : List Bool) (s : ℕ) (os : List Bool) : Prop where
  length : os.length = pins.length
  idle : s = 0 → ∀ p, os[p]? = some true →
    ∃ v, p + lockout ≤ v ∧ v < pins.length ∧ pins[v]? = some false
  locked : 0 < s → ∃ p, Locked lockout pins os p s

section History

variable {lockout : ℕ} {os : List Bool} {p : ℕ}

/-- A report starts the lockout at the position just read. -/
theorem locked_of_report (hlen : os.length = pins.length) :
    Locked lockout (pins ++ [true]) (os ++ [true]) pins.length lockout where
  reported := by rw [← hlen, List.getElem?_concat_length]
  last q hq := by
    rcases getElem?_concat_eq_some_iff.mp hq with hold | ⟨hnew, -⟩
    · have := (List.getElem?_eq_some_iff.mp hold).1
      omega
    · omega
  waited := by rw [List.length_append, List.length_singleton]; omega
  counting _ := by rw [List.length_append, List.length_singleton]; omega
  held v hv hfalse := by
    rcases getElem?_concat_eq_some_iff.mp hfalse with hold | ⟨-, hne⟩
    · have := (List.getElem?_eq_some_iff.mp hold).1
      omega
    · cases hne

/-- One more sample without a report: the lockout counts down, or the contact is held. -/
theorem Locked.step (h : Locked lockout pins os p s) {x : Bool}
    (hx : 1 < s ∨ x = true) (hs : 0 < s) :
    Locked lockout (pins ++ [x]) (os ++ [false]) p (if 1 < s then s - 1 else s) where
  reported := getElem?_concat_eq_some_iff.mpr (Or.inl h.reported)
  last q hq := by
    rcases getElem?_concat_eq_some_iff.mp hq with hold | ⟨-, hne⟩
    · exact h.last q hold
    · cases hne
  waited := by
    have hwaited := h.waited
    rw [List.length_append, List.length_singleton]
    split <;> omega
  counting := by
    intro hlt
    rw [List.length_append, List.length_singleton]
    split at hlt
    · rename_i h1
      have hcounting := h.counting h1
      rw [if_pos h1]
      omega
    · omega
  held v hv hfalse := by
    rcases getElem?_concat_eq_some_iff.mp hfalse with hold | ⟨hnew, hne⟩
    · exact h.held v hv hold
    · -- within the lockout position `v` is too early, and after it the sample is high
      rcases hx with h1 | hhigh
      · have hcounting := h.counting h1
        omega
      · rw [hhigh] at hne
        cases hne

theorem DebounceHistory.step (hl : 0 < lockout) (h : DebounceHistory lockout pins s os)
    (x : Bool) :
    DebounceHistory lockout (pins ++ [x]) (debounce lockout s x).1
      (os ++ [(debounce lockout s x).2]) := by
  have hlen := h.length
  have hlen' : ∀ b, (os ++ [b]).length = (pins ++ [x]).length := by simp [hlen]
  unfold debounce
  split_ifs with hle hpressed hzero
  · -- a report
    subst hpressed
    exact ⟨hlen' _, fun h0 => by simp only at h0; omega, fun _ => ⟨_, locked_of_report hlen⟩⟩
  · -- pressed and reported already
    have hs : s = 1 := by omega
    obtain ⟨p, hp⟩ := h.locked (by omega)
    have hstep := hp.step (x := x) (Or.inr hpressed) (by omega)
    rw [if_neg (by omega)] at hstep
    exact ⟨hlen' _, fun h0 => by simp only at h0; omega, fun _ => ⟨p, hstep⟩⟩
  · -- released: every lockout is over
    refine ⟨hlen' _, fun _ p hp => ?_, fun hpos => absurd hpos (Nat.lt_irrefl 0)⟩
    obtain rfl : x = false := by simpa using hpressed
    rcases getElem?_concat_eq_some_iff.mp hp with hold | ⟨-, hne⟩
    · rcases Nat.eq_zero_or_pos s with h0 | hpos
      · obtain ⟨v, hpv, hv, hlow⟩ := h.idle h0 p hold
        exact ⟨v, hpv, by simp; omega, getElem?_concat_eq_some_iff.mpr (Or.inl hlow)⟩
      · obtain ⟨q, hq⟩ := h.locked hpos
        have hqp := hq.last p hold
        have hwaited := hq.waited
        exact ⟨pins.length, by omega, by simp, List.getElem?_concat_length⟩
    · cases hne
  · -- the lockout counts down
    obtain ⟨p, hp⟩ := h.locked (by omega)
    have hstep := hp.step (x := x) (Or.inl (by omega)) (by omega)
    rw [if_pos (by omega)] at hstep
    exact ⟨hlen' _, fun h0 => by simp only at h0; omega, fun _ => ⟨p, hstep⟩⟩

theorem debounceHistory (hl : 0 < lockout) (pins : List Bool) :
    DebounceHistory lockout pins ((debouncer lockout).run 0 pins)
      ((debouncer lockout).outputs 0 pins) :=
  Mealy.history_induction (M := debouncer lockout) (s := 0) (P := DebounceHistory lockout)
    ⟨rfl, fun _ p hp => by simp at hp, fun h => absurd h (Nat.lt_irrefl 0)⟩
    (fun _ x h => h.step hl x) pins

/-- The state is 0 exactly when the contact has been released after every lockout. -/
theorem DebounceHistory.eq_zero_iff (h : DebounceHistory lockout pins s os) :
    s = 0 ↔ ∀ p, os[p]? = some true →
      ∃ v, p + lockout ≤ v ∧ v < pins.length ∧ pins[v]? = some false := by
  refine ⟨h.idle, fun hreleased => ?_⟩
  by_contra hne
  obtain ⟨p, hp⟩ := h.locked (Nat.pos_of_ne_zero hne)
  obtain ⟨v, hpv, -, hlow⟩ := hreleased p hp.reported
  exact hp.held v hpv hlow

end History

/-! ## Reports are rises -/

/-- **The debouncer reports the rises of its contact.** -/
theorem reportsAt_iff_rises {lockout : ℕ} (hl : 0 < lockout) (pins : List Bool) (t : ℕ) :
    ReportsAt lockout pins t ↔ Rises lockout pins t := by
  induction t using Nat.strongRecOn with
  | ind t ih =>
    rw [reportsAt_iff_run, rises_iff]
    refine and_congr_right fun hx => ?_
    have hlt : t < pins.length := (List.getElem?_eq_some_iff.mp hx).1
    rw [(debounceHistory hl (pins.take t)).eq_zero_iff, Mealy.outputs_take]
    -- a position before `t` is the same in the first `t` samples and in all of them
    have htake : ∀ {α : Type} (l : List α) {k : ℕ}, k < t → (l.take t)[k]? = l[k]? :=
      fun l _ hk => List.getElem?_take_of_lt hk
    have hlen : (pins.take t).length = t := by simp; omega
    constructor
    · intro h s hs hrise
      obtain ⟨v, hsv, hv, hlow⟩ := h s (by rw [htake _ hs]; exact (ih s hs).mpr hrise)
      rw [hlen] at hv
      exact ⟨v, hsv, hv, by rwa [htake _ hv] at hlow⟩
    · intro h p hp
      have hpt : p < t := by
        have := (List.getElem?_eq_some_iff.mp hp).1
        rw [List.length_take] at this
        omega
      rw [htake _ hpt] at hp
      obtain ⟨v, hpv, hv, hlow⟩ := h p hpt ((ih p hpt).mp hp)
      exact ⟨v, hpv, by rw [hlen]; exact hv, by rwa [htake _ hv]⟩

end LoccFirmware.Automata
