import LoccFirmware.System.CycleOrder
import LoccFirmware.System.CycleTiming
import LoccFirmware.System.Peripherals
import LoccFirmware.System.PortPhase

/-!
# Charged Before It Is Woken

Case 4 of `do_locc_step` powers the cylinder up and waits 5000 ticks, the time its
capacitor takes to charge.  `loccSetup` powers it up as well but leaves `wait_ticks` at 0.
So a wake-up finds a charged cylinder in every opening but the first, and in the first
one only if the host has given it the time.
-/

namespace LoccFirmware.System

open LoccFirmware.Automata LoccFirmware.Protocol LoccFirmware.Lock

/-! ## The property and its condition -/

section Charging

variable (events : List Event)

/-- The supply of the cylinder is on when event `k` begins. -/
def PoweredAt (k : ℕ) : Prop :=
  (firmware.run setup (events.take k)).locc.port.powered = true

/-- In frame `j` the supply has been on for 5000 ticks since it was last switched on: by
`setup`, when the count of ticks begins, or by case 4 in a frame `i`.  A case writes the
port right after the timer check of its frame. -/
def ChargedAt (j : ℕ) : Prop :=
  ((∀ i < j, performedAt events i ≠ some .powerupLocc) ∧ (∀ k ≤ j, PoweredAt events k) ∧
    5000 ≤ timerCheckAt events j) ∨
  ∃ i < j, performedAt events i = some .powerupLocc ∧
    (∀ k, i < k → k < j → performedAt events k ≠ some .powerupLocc) ∧
    (∀ k, i < k → k ≤ j → PoweredAt events k) ∧
    timerCheckAt events i + 5000 ≤ timerCheckAt events j

/-- Every wake-up finds a charged cylinder. -/
def ChargedBeforeWake : Prop :=
  ∀ j, performedAt events j = some .wakeupLocc → ChargedAt events j

/-- `handle_user_input` recognises an open command in frame `j`. -/
def OpenCommandAt (j : ℕ) : Prop :=
  ∃ f, events[j]? = some (.frame f) ∧
    (handleReceived f.received (parse (received (events.take j)))).command = 1

/-- No open command comes in the first 5000 ticks. -/
def NoEarlyCommand : Prop :=
  ∀ j, OpenCommandAt events j → 5000 ≤ timerCheckAt events j

end Charging

/-! ## Commands -/

section Commands

variable {events : List Event} {j : ℕ}

/-- A command that is accepted has been recognised. -/
theorem AcceptedAt.openCommandAt (h : AcceptedAt events j) : OpenCommandAt events j := by
  obtain ⟨o, ho, hacc⟩ := h
  rw [Mealy.outputs_getElem?, Option.map_eq_some_iff] at ho
  obtain ⟨e, he, hstep⟩ := ho
  cases e with
  | tick => cases hstep
  | frame f =>
    obtain rfl := Option.some.inj hstep
    refine ⟨f, he, ?_⟩
    rw [← parser_run]
    rw [loop_accepted] at hacc
    -- `start_locking` is called on `command == 1` only
    rcases beforeTurn_cases f (firmware.run setup (events.take j)) with
      ⟨-, hcmd, -⟩ | ⟨-, hturn⟩
    · exact hcmd
    · rw [hturn] at hacc
      cases hacc

/-- The sequencer sees a command that is recognised as a request. -/
theorem OpenCommandAt.request (h : OpenCommandAt events j) :
    ∃ x, (signals events)[j]? = some x ∧ x.poll = some true := by
  obtain ⟨f, hf, hcmd⟩ := h
  rw [← parser_run] at hcmd
  refine ⟨signal (.frame f) (some (loop f (firmware.run setup (events.take j))).2), ?_, ?_⟩
  · rw [signals, Mealy.drives, List.getElem?_zipWith, Mealy.outputs_getElem?, hf]
    rfl
  · exact congrArg some (decide_eq_true hcmd)

end Commands

/-! ## The supply between two openings -/

section Supply

variable {events : List Event}

theorem signals_take (k : ℕ) : signals (events.take k) = (signals events).take k :=
  Mealy.drives_take signal setup events k

/-- The supply is off in phase 4 only. -/
theorem poweredAt_of_phase {k : ℕ}
    (h : ((Sequencer.machine waits).run Sequencer.start ((signals events).take k)).phase ≠ 4) :
    PoweredAt events k := by
  refine (settled_run (events.take k)).port.powered fun hfour => ?_
  rw [(refines_run (events.take k)).step, signals_take] at hfour
  exact h (Fin.ext hfour)

/-- Up to the first action of all, the supply is on. -/
theorem poweredAt_of_fresh {j k : ℕ} (hquiet : ∀ i < j, performedAt events i = none)
    (hk : k ≤ j) : PoweredAt events k := by
  have hfresh := Sequencer.fresh_of_quiet waits (signals events) (j := k) fun i hi =>
    (performedAt_eq_none_iff events i).mp (hquiet i (Nat.lt_of_lt_of_le hi hk))
  apply poweredAt_of_phase
  rw [hfresh.phase]
  decide

/-- From a power-up to the next action, the supply is on. -/
theorem poweredAt_of_powerup {i j k : ℕ} (hi : performedAt events i = some .powerupLocc)
    (hnext : Next (performedAt events) i j) (hik : i < k) (hkj : k ≤ j) :
    PoweredAt events k := by
  have hwait := Sequencer.waiting_of_quiet waits (signals events) (i := i) (j := k)
    ((performedAt_eq_some_iff events i .powerupLocc).mp hi) hik fun l hil hlk =>
      (performedAt_eq_none_iff events l).mp (hnext.2.2 l hil (Nat.lt_of_lt_of_le hlk hkj))
  -- the opening is complete, so the phase is 0, or 1 with the next command
  apply poweredAt_of_phase
  by_cases hreq : ∃ l, i < l ∧
      Sequencer.AcceptsAt (((Sequencer.machine waits).outputs Sequencer.start
        (signals events)).take k) l
  · rw [hwait.requested rfl hreq]
    decide
  · rw [hwait.resting rfl hreq]
    decide

end Supply

/-! ## The theorem -/

section Theorem

variable {events : List Event} {j : ℕ}

/-- A wake-up that follows a power-up comes 5000 ticks after it. -/
theorem chargedAt_of_next {i : ℕ} (hi : performedAt events i = some .powerupLocc)
    (hnext : Next (performedAt events) i j) : ChargedAt events j := by
  have hwaited := ((next_iff_isLeast hi j).mp hnext).1.1.2.2
  refine Or.inr ⟨i, hnext.1, hi, fun k hik hkj => ?_,
    fun k hik hkj => poweredAt_of_powerup hi hnext hik hkj, ?_⟩
  · rw [hnext.2.2 k hik hkj]
    exact (Option.some_ne_none _).symm
  · -- the wait begins when the step is over
    exact Nat.le_trans (Nat.add_le_add_right (checkAt_le_setAt _ i) 5000) hwaited

/-- The very first wake-up is the one that `setup` does not provide for. -/
theorem chargedAt_first_iff (hquiet : ∀ k < j, performedAt events k = none) :
    ChargedAt events j ↔ 5000 ≤ timerCheckAt events j := by
  constructor
  · rintro (⟨-, -, h⟩ | ⟨i, hij, hi, -⟩)
    · exact h
    · rw [hquiet i hij] at hi
      cases hi
  · intro h
    refine Or.inl ⟨fun i hij hi => ?_, fun k hk => poweredAt_of_fresh hquiet hk, h⟩
    rw [hquiet i hij] at hi
    cases hi

/-- Whenever a command is recognised, the first wake-up of all comes in the same frame or
    has come before. -/
theorem OpenCommandAt.exists_first_wake (h : OpenCommandAt events j) :
    ∃ i ≤ j, performedAt events i = some .wakeupLocc ∧ ∀ k < i, performedAt events k = none := by
  obtain ⟨x, hx, hreq⟩ := h.request
  obtain ⟨i, hij, hact, hquiet⟩ :=
    Sequencer.exists_first_of_request waits (signals events) hx hreq (by decide)
  exact ⟨i, hij, (performedAt_eq_some_iff events i .wakeupLocc).mpr hact,
    fun k hk => (performedAt_eq_none_iff events k).mpr (hquiet k hk)⟩

end Theorem

/-- **Charged before it is woken**, if and only if no open command is recognised in the
    first 5000 ticks after `setup`. -/
theorem chargedBeforeWake_iff (events : List Event) :
    ChargedBeforeWake events ↔ NoEarlyCommand events := by
  constructor
  · -- the first wake-up of all is no later than the command, and nothing has charged for it
    intro h j hcommand
    obtain ⟨i, hij, hwake, hquiet⟩ := hcommand.exists_first_wake
    have hcharged := (chargedAt_first_iff hquiet).mp (h i hwake)
    exact Nat.le_trans hcharged (checkAt_mono hij)
  · intro h j hwake
    rcases first_or_follows hwake with ⟨i, c, hnext, hi, hne, hc⟩ | ⟨-, hacc, hquiet⟩
    · -- only the power-up is followed by a wake-up
      cases c with
      | powerupLocc => exact chargedAt_of_next hi hnext
      | safeState => exact absurd rfl hne
      | wakeupLocc => cases hc
      | openLocc => cases hc
      | powerdownLocc => cases hc
    · exact (chargedAt_first_iff hquiet).mpr (h j hacc.openCommandAt)

/-- A command right after `setup` wakes a cylinder that has had no time to charge. -/
theorem not_chargedBeforeWake_first_command :
    ¬ ChargedBeforeWake [frameOf (some '\n'.toUInt8) 0, frameOf (some 'o'.toUInt8) 0] := by
  intro h
  rcases h 1 (by decide) with ⟨-, -, hcharged⟩ | ⟨i, hi, hpower, -⟩
  · exact absurd hcharged (by decide)
  · obtain rfl : i = 0 := by omega
    exact absurd hpower (by decide)

end LoccFirmware.System
