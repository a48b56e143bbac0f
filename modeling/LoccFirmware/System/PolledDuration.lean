import LoccFirmware.Automata.Promptness
import LoccFirmware.System.PolledLine

/-!
# How Long a Cycle of the Polled Driver Takes

`loccPoll` has to be called for a cycle to go on.  If it is called every `gap` ticks at
least, from the `loccStartOpening` that started the cycle on, the lock is opened within 109
ticks and four gaps, loses its supply 10000 to 10000 + 2·`gap` ticks later, and the driver
sleeps again 10111 ticks and eight gaps after the start.
-/

namespace LoccFirmware.System

open LoccFirmware.Automata LoccFirmware.Cylinder LoccFirmware.Lock

section Runs

variable (port : Port) (step : ℕ) (events : List PolledEvent)

/-- The state that `state_machine` is called for in event `i`. -/
def enteredAt (i : ℕ) : Option ℕ :=
  (callOutputs port step events)[i]?.bind CallOutput.entered

/-- Event `j` is a `loccPoll`, or a `loccStartOpening` that starts a cycle. -/
def ServedAt (j : ℕ) : Prop :=
  (∃ c, events[j]? = some (.poll c)) ∨ calledAt port step events j = some .powerupLocc

/-- Such calls look at the timer at most `gap` ticks apart. -/
def ServedWithin (gap : ℕ) : Prop :=
  Within (events.map PolledEvent.window) (ServedAt port step events) gap

/-! ## From the sequencer to the driver -/

/-- The responses of the sequencer to a run of the driver. -/
def polledResponses : List (Response 5) :=
  (Sequencer.machine pollWaits).outputs Sequencer.start (pollSignals port step events)

theorem actionAt_polledResponses (i : ℕ) :
    Sequencer.actionAt (polledResponses port step events) i =
      (enteredAt port step events i).bind phase? := by
  rw [polledResponses, ← pollResponses_eq, Sequencer.actionAt, enteredAt, List.getElem?_map]
  cases (callOutputs port step events)[i]? <;> rfl

theorem phase?_eq_some_iff {number : ℕ} {a : Fin 6} : phase? number = some a ↔ number = a.val := by
  rw [phase?]
  constructor
  · intro h
    split at h
    · rw [← Option.some.inj h]
    · cases h
  · rintro rfl
    rw [dif_pos a.isLt]

theorem enteredAt_eq_some_iff (i : ℕ) (a : Fin 6) :
    enteredAt port step events i = some a.val ↔
      Sequencer.actionAt (polledResponses port step events) i = some a := by
  rw [actionAt_polledResponses]
  cases enteredAt port step events i with
  | none => simp
  | some number => simp [phase?_eq_some_iff]

/-- A state that is entered is one of the six. -/
theorem enteredAt_lt {i number : ℕ} (h : enteredAt port step events i = some number) :
    number < 6 := by
  obtain ⟨o, ho, hentered⟩ := Option.bind_eq_some_iff.mp h
  obtain ⟨t, e, -, rfl⟩ := Mealy.exists_step_of_mem_outputs _ (List.mem_of_getElem? ho)
  obtain ⟨c, hc, hd⟩ := state_in_range port step (events.take t)
  rcases idles_or_enters hc hd e with hidle | henters
  · cases hidle.entered.symm.trans hentered
  · rw [← Option.some.inj (henters.entered.symm.trans hentered)]
    cases followingState c <;> decide

theorem enteredAt_eq_none_iff (i : ℕ) :
    enteredAt port step events i = none ↔
      Sequencer.actionAt (polledResponses port step events) i = none := by
  rw [actionAt_polledResponses]
  cases hentered : enteredAt port step events i with
  | none => simp
  | some number =>
    have hphase := (phase?_eq_some_iff (a := ⟨number, enteredAt_lt port step events hentered⟩)).mpr
      rfl
    simp [hphase]

/-- What is called is what the state that is entered calls. -/
theorem calledAt_eq (i : ℕ) :
    calledAt port step events i = (enteredAt port step events i).bind calledFor := by
  rw [calledAt, enteredAt, callOutputs, Mealy.outputs_getElem?]
  cases events[i]? with
  | none => rfl
  | some e => exact step_performed _ e

theorem polledAt_iff (j : ℕ) :
    Sequencer.PolledAt (pollSignals port step events) j ↔ ServedAt port step events j := by
  have hstart := calledAt_powerup_iff port step events j
  rw [Sequencer.PolledAt, pollSignals, Mealy.drives, ServedAt, List.getElem?_zipWith,
    Mealy.outputs_getElem?, hstart]
  cases he : events[j]? with
  | none => simp
  | some e =>
    cases e with
    | tick => simp [pollSignal]
    | poll c => simp [pollSignal]
    | startOpening c =>
      -- the call is a poll of the sequencer if it starts a cycle
      by_cases hsleep : (polledDriver.run (initial port step) (events.take j)).state = 0
      · have hrun : polledDriver.step _ (.startOpening c) = _ := loccStartOpening_of_sleep c hsleep
        simp [pollSignal, hrun, hsleep, LoccStates.number, driverAfter]
      · have hrun : polledDriver.step _ (.startOpening c) = _ :=
          loccStartOpening_of_ne_sleep c hsleep
        simp [pollSignal, hrun, hsleep, LoccStates.number, driverAfter]

/-! ## States in time -/

variable {port step events} {gap i k : ℕ}

/-- Within a cycle, the next state is entered in time. -/
theorem exists_entered_in_time (hgap : ServedWithin port step events gap) (a : Fin 6) (wait : ℕ)
    (ha : enteredAt port step events i = some a.val) (hne : a + 1 ≠ 0) (hwait : pollWaits a = wait)
    (hk : ServedAt port step events k) (hik : i < k)
    (htime : lookedAt events i + wait + gap ≤ lookedAt events k) :
    ∃ j, Next (enteredAt port step events) i j ∧ j ≤ k ∧
      enteredAt port step events j = some (a + 1).val ∧
      lookedAt events i + wait ≤ lookedAt events j ∧
      lookedAt events j ≤ lookedAt events i + wait + 2 * gap := by
  have hpolled : Sequencer.PolledAt (pollSignals port step events) = ServedAt port step events :=
    funext fun j => propext (polledAt_iff port step events j)
  have hact := (enteredAt_eq_some_iff port step events i a).mp ha
  rw [ServedWithin, ← hpolled, ← map_window_pollSignals port step] at hgap
  simp only [lookedAt, ← map_window_pollSignals port step, ← hwait] at htime ⊢
  obtain ⟨j, hnext, hjk, hwaited, hlate⟩ := Sequencer.exists_next_prompt hgap hact hne
    ((polledAt_iff port step events k).mpr hk) hik htime
  have hsucc := Sequencer.succ_of_next pollWaits _ hact hnext
  rw [Sequencer.succ, if_neg hne] at hsucc
  have hentered := (enteredAt_eq_some_iff port step events j _).mpr hsucc
  refine ⟨j, ⟨hnext.1, by rw [hentered]; rfl, fun l hil hlj => ?_⟩, hjk, hentered, hwaited, hlate⟩
  exact (enteredAt_eq_none_iff port step events l).mpr (hnext.2.2 l hil hlj)

/-- Where nothing is entered, nothing is called. -/
theorem next_calledAt {i j : ℕ} {f : LoccAction} (h : Next (enteredAt port step events) i j)
    (hf : calledAt port step events j = some f) : Next (calledAt port step events) i j := by
  refine ⟨h.1, by rw [hf]; rfl, fun l hil hlj => ?_⟩
  rw [calledAt_eq, h.2.2 l hil hlj, Option.bind_none]

/-- After `RESET` the driver sleeps. -/
theorem state_of_reset {r : ℕ} (h : enteredAt port step events r = some 5) :
    (driverAfter port step (events.take (r + 1))).state = LoccStates.sleep.number := by
  rw [enteredAt, callOutputs, Mealy.outputs_getElem?, Option.bind_map,
    Option.bind_eq_some_iff] at h
  obtain ⟨e, he, hentered⟩ := h
  obtain ⟨c, hc, hd⟩ := state_in_range port step (events.take r)
  rw [driverAfter, Mealy.run_take_succ _ _ he]
  rcases idles_or_enters hc hd e with hidle | henters
  · cases hidle.entered.symm.trans hentered
  · have hreset : followingState c = .reset := by
      have hnumber : (followingState c).number = 5 :=
        Option.some.inj (henters.entered.symm.trans hentered)
      revert hnumber
      cases c <;> decide
    have hstate := henters.state
    rw [hreset] at hstate
    exact hstate

end Runs

/-! ## The theorem -/

/-- **A cycle takes its time and no more**: if, from a `loccStartOpening` that starts a cycle
    on, `loccPoll` is called every `gap` ticks at least and for long enough, then the
    cylinder is woken, opened and powered down, each within the given number of ticks and
    with nothing else called on it in between, and the driver sleeps again. -/
theorem polled_opening_in_time (port : Port) (step : ℕ) (events : List PolledEvent) (gap a k : ℕ)
    (hgap : ServedWithin port step events gap)
    (hstart : calledAt port step events a = some .powerupLocc)
    (hk : ServedAt port step events k)
    (htime : lookedAt events a + 10111 + 7 * gap ≤ lookedAt events k) :
    ∃ w o d r, r ≤ k ∧
      (Next (calledAt port step events) a w ∧
        calledAt port step events w = some .wakeupLocc ∧
        lookedAt events a + 50 ≤ lookedAt events w ∧
        lookedAt events w ≤ lookedAt events a + 50 + 2 * gap) ∧
      (Next (calledAt port step events) w o ∧
        calledAt port step events o = some .openLocc ∧
        lookedAt events w + 59 ≤ lookedAt events o ∧
        lookedAt events o ≤ lookedAt events a + 109 + 4 * gap) ∧
      (Next (calledAt port step events) o d ∧
        calledAt port step events d = some .powerdownLocc ∧
        lookedAt events o + 10000 ≤ lookedAt events d ∧
        lookedAt events d ≤ lookedAt events o + 10000 + 2 * gap) ∧
      (d < r ∧ (∀ l, d < l → l ≤ r → calledAt port step events l = none) ∧
        (driverAfter port step (events.take (r + 1))).state = LoccStates.sleep.number ∧
        lookedAt events r ≤ lookedAt events a + 10111 + 8 * gap) := by
  -- a call that looks later comes later
  have hbefore {i : ℕ} (h : lookedAt events i < lookedAt events k) : i < k := by
    by_contra hle
    exact absurd (checkAt_mono (Nat.le_of_not_lt hle)) (Nat.not_le_of_lt h)
  have hone : enteredAt port step events a = some 1 := by
    rw [calledAt_eq, Option.bind_eq_some_iff] at hstart
    obtain ⟨number, hentered, hcalled⟩ := hstart
    rw [hentered, (calledFor_eq_powerupLocc_iff number).mp hcalled]
  obtain ⟨w, haw, -, htwo, hw₁, hw₂⟩ := exists_entered_in_time hgap 1 50 hone (by decide) rfl hk
    (hbefore (by omega)) (by omega)
  obtain ⟨o, hwo, -, hthree, ho₁, ho₂⟩ := exists_entered_in_time hgap 2 59 htwo (by decide) rfl hk
    (hbefore (by omega)) (by omega)
  obtain ⟨d, hod, -, hfour, hd₁, hd₂⟩ := exists_entered_in_time hgap 3 10000 hthree (by decide) rfl
    hk (hbefore (by omega)) (by omega)
  obtain ⟨r, hdr, hrk, hfive, hr₁, hr₂⟩ := exists_entered_in_time hgap 4 2 hfour (by decide) rfl hk
    (hbefore (by omega)) (by omega)
  have hwake : calledAt port step events w = some .wakeupLocc := by
    rw [calledAt_eq, htwo]
    rfl
  have hopen : calledAt port step events o = some .openLocc := by
    rw [calledAt_eq, hthree]
    rfl
  have hdown : calledAt port step events d = some .powerdownLocc := by
    rw [calledAt_eq, hfour]
    rfl
  refine ⟨w, o, d, r, hrk, ⟨next_calledAt haw hwake, hwake, hw₁, hw₂⟩,
    ⟨next_calledAt hwo hopen, hopen, ho₁, by omega⟩,
    ⟨next_calledAt hod hdown, hdown, hd₁, hd₂⟩, hdr.1, fun l hdl hlr => ?_,
    state_of_reset hfive, by omega⟩
  rw [calledAt_eq]
  rcases Nat.lt_or_eq_of_le hlr with hlt | rfl
  · rw [hdr.2.2 l hdl hlt, Option.bind_none]
  · rw [hfive]
    rfl

/-- A start, and `loccPoll` called every 10000 ticks from then on. -/
def slowCalls : List PolledEvent :=
  .startOpening (callAfter 0) :: List.replicate 9 (.poll (callAfter 10000))

/-- Even so the driver sleeps again 90111 ticks later. -/
theorem polled_opening_in_time_slow :
    ∃ r ≤ 9, (driverAfter ⟨0x7F, 0x50, []⟩ 0 (slowCalls.take (r + 1))).state = 0 ∧
      lookedAt slowCalls r ≤ 90111 := by
  have hgap : ServedWithin ⟨0x7F, 0x50, []⟩ 0 slowCalls (0 + 10000) := by
    apply within_of_forall
    · intro j hj
      have hlt : j < 10 := hj
      cases j with
      | zero => exact Or.inr (by decide +kernel)
      | succ j =>
        refine Or.inl ⟨callAfter 10000, ?_⟩
        rw [slowCalls, List.getElem?_cons_succ, List.getElem?_replicate, if_pos (by omega)]
    · rintro j (⟨c, hc⟩ | hc)
      · have hlt := (List.getElem?_eq_some_iff.mp hc).1
        rwa [List.length_map]
      · obtain ⟨c, hc, -⟩ := (calledAt_powerup_iff _ _ _ j).mp hc
        have hlt := (List.getElem?_eq_some_iff.mp hc).1
        rwa [List.length_map]
    · decide
  obtain ⟨w, o, d, r, hr, -, -, -, -, -, hstate, hlate⟩ :=
    polled_opening_in_time ⟨0x7F, 0x50, []⟩ 0 slowCalls (0 + 10000) 0 9 hgap (by decide +kernel)
      (Or.inl ⟨_, rfl⟩) (by decide)
  exact ⟨r, hr, hstate, Nat.le_trans hlate (by decide)⟩

end LoccFirmware.System
