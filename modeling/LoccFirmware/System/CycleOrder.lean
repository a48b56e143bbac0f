import LoccFirmware.System.CycleRefinement

/-!
# One Opening per Command

The safety of the door rests on this: the cylinder is only driven after a command, and a
command drives it through one complete cycle of wake-up, opening, power-down and
power-up before the next command counts.

Case 0 of `do_locc_step` would start a cycle by itself.  It is dead code, because
`is_locking` is true only while `current_locc_step` is not 0, which is part of the
refinement.
-/

namespace LoccFirmware.System

open LoccFirmware.Automata LoccFirmware.Lock

/-! ## Traces -/

/-- What counts for the order of events: an accepted command, or a case of
`do_locc_step` that was run. -/
inductive Mark where
  | accepted
  | performed (c : StepCase)
  deriving DecidableEq, Repr

/-- The marks of an event, in the order of the code: the command first. -/
def marks : Option FrameOutput → List Mark
  | none => []
  | some o =>
    (if o.accepted then [.accepted] else []) ++
      (o.performed.map fun p => Mark.performed p.stepCase).toList

/-- The marks of a run from `setup`. -/
def trace (events : List Event) : List Mark :=
  (firmware.outputs setup events).flatMap marks

/-- The case of `do_locc_step` run in a trace entry. -/
def Mark.action? : Mark → Option StepCase
  | .accepted => none
  | .performed c => some c

/-- The actions of a run from `setup`. -/
def actions (events : List Event) : List StepCase :=
  (trace events).filterMap Mark.action?

/-- A stretch of events that no wait of the lock outlasts: 15000 ticks, and then a
frame. -/
def Rousing (events : List Event) : Prop :=
  ∃ pre f, events = pre ++ [Event.frame f] ∧
    15000 ≤ elapsed (pre.map Event.window) + f.ticksBeforeCheck

/-- One opening, from its command on. -/
def opening : List Mark :=
  [.accepted, .performed .wakeupLocc, .performed .openLocc, .performed .powerdownLocc,
    .performed .powerupLocc]

/-! ## From the sequencer to the trace -/

/-- The mark that leaves a phase. -/
def phaseMark : Fin 5 → Mark
  | 0 => .accepted
  | 1 => .performed .wakeupLocc
  | 2 => .performed .openLocc
  | 3 => .performed .powerdownLocc
  | 4 => .performed .powerupLocc

theorem phaseMark_injective : Function.Injective phaseMark := by
  intro a b h
  have table : ∀ a b : Fin 5, phaseMark a = phaseMark b → a = b := by decide
  exact table a b h

theorem phaseMark_phase {c : StepCase} (hc : phase c ≠ 0) : phaseMark (phase c) = .performed c := by
  cases c with
  | safeState => exact absurd rfl hc
  | _ => rfl

/-- **Case 0 is never run.** -/
theorem phase_ne_zero_of_performed {events : List Event} {o : FrameOutput}
    (ho : some o ∈ firmware.outputs setup events) {p : Performed} (hp : o.performed = some p) :
    phase p.stepCase ≠ 0 := by
  intro hzero
  -- the response to this frame would perform an action in phase 0
  have hmem : response (some o) ∈
      (Sequencer.machine waits).outputs Sequencer.start (signals events) := by
    rw [← responses_eq]
    exact List.mem_map_of_mem ho
  obtain ⟨t, x, -, hstep⟩ := Mealy.exists_step_of_mem_outputs _ hmem
  have haction : (response (some o)).action = some 0 := by
    rw [response, hp, Option.map_some, hzero]
  exact Sequencer.step_action_ne_zero (hstep ▸ haction)

theorem marks_eq {events : List Event} {o : Option FrameOutput}
    (ho : o ∈ firmware.outputs setup events) : marks o = (response o).marks.map phaseMark := by
  cases o with
  | none => rfl
  | some o =>
    have hcommand : phaseMark 0 = .accepted := rfl
    cases hp : o.performed with
    | none => cases hacc : o.accepted <;> simp [marks, response, Response.marks, hp, hacc, hcommand]
    | some p =>
      have hmark := phaseMark_phase (phase_ne_zero_of_performed ho hp)
      cases hacc : o.accepted <;>
        simp [marks, response, Response.marks, hp, hacc, hmark, hcommand]

/-- The trace goes round the phases. -/
theorem trace_eq_cycle (events : List Event) :
    ∃ k, trace events = (Sequencer.cycle 4 k).map phaseMark ∧
      ((Sequencer.machine waits).run Sequencer.start (signals events)).phase =
        Fin.ofNat 5 k := by
  obtain ⟨k, hmarks, hphase⟩ := Sequencer.marks_eq_cycle waits (signals events)
  refine ⟨k, ?_, hphase⟩
  rw [← hmarks, ← responses_eq, Sequencer.marks, List.flatMap_map, List.map_flatMap, trace]
  exact List.flatMap_congr fun o ho => marks_eq ho

theorem count_phaseMark (k : ℕ) (a : Fin 5) :
    ((Sequencer.cycle 4 k).map phaseMark).count (phaseMark a) = (Sequencer.cycle 4 k).count a :=
  List.count_map_of_injective _ _ phaseMark_injective a

theorem cycle_mul_map (N : ℕ) :
    (Sequencer.cycle 4 (N * 5)).map phaseMark = (List.replicate N opening).flatten := by
  rw [Sequencer.cycle_mul, List.map_flatten, List.map_replicate]
  rfl

/-- The trace is a prefix of openings. -/
theorem trace_prefix (events : List Event) :
    ∃ N, trace events <+: (List.replicate N opening).flatten := by
  obtain ⟨k, htrace, -⟩ := trace_eq_cycle events
  have hprefix := (Sequencer.cycle_prefix k).map phaseMark
  rw [← Sequencer.cycle_mul, cycle_mul_map, ← htrace] at hprefix
  exact ⟨k, hprefix⟩

theorem actions_prefix (events : List Event) :
    ∃ N, actions events <+: (List.replicate N
      [StepCase.wakeupLocc, .openLocc, .powerdownLocc, .powerupLocc]).flatten := by
  obtain ⟨N, hprefix⟩ := trace_prefix events
  have hactions := hprefix.filterMap Mark.action?
  rw [List.filterMap_flatten, List.map_replicate] at hactions
  exact ⟨N, hactions⟩

/-- The lock's turn comes only while `is_locking` is true. -/
theorem locking_of_performed {events : List Event} {o : FrameOutput}
    (ho : some o ∈ firmware.outputs setup events) (hp : o.performed.isSome = true) :
    o.locking = true := by
  obtain ⟨t, e, -, hstep⟩ := Mealy.exists_step_of_mem_outputs _ ho
  cases e with
  | tick => cases hstep
  | frame f =>
    obtain rfl := Option.some.inj hstep
    by_contra hlock
    rw [loop_locking] at hlock
    rw [loop_performed, driveLock, if_neg hlock] at hp
    cases hp

/-- Between a command and the first action, and between an action and the next command. -/
theorem count_bounds {events : List Event} {p : List Mark} (hp : p <+: trace events) :
    p.count (.performed .wakeupLocc) ≤ p.count .accepted ∧
      p.count .accepted ≤ p.count (.performed .powerupLocc) + 1 := by
  obtain ⟨k, htrace, -⟩ := trace_eq_cycle events
  obtain ⟨m, hm⟩ : ∃ m, p = (Sequencer.cycle 4 m).map phaseMark := by
    rw [htrace] at hp
    refine ⟨min p.length k, ?_⟩
    rw [← Sequencer.take_cycle, List.map_take]
    exact List.prefix_iff_eq_take.mp hp
  -- the wake-up leaves phase 1 and the power-up phase 4, both after phase 0
  have hw := Sequencer.count_cycle (a := (0 : Fin 5)) (b := 1) (by decide) m
  have hu := Sequencer.count_cycle (a := (0 : Fin 5)) (b := 4) (by decide) m
  rw [← count_phaseMark, ← count_phaseMark, ← hm] at hw hu
  simp only [phaseMark] at hw hu
  constructor
  · omega
  · rw [hu]
    split <;> omega

/-! ## Completion -/

/-- A rousing stretch rouses the sequencer. -/
theorem Rousing.rouses {events : List Event} (h : Rousing events) (m : Machine) :
    Sequencer.Rouses 15000 (firmware.drives signal m events) := by
  obtain ⟨pre, f, rfl, hticks⟩ := h
  refine ⟨_, _, Mealy.drives_append signal m pre [.frame f], rfl, ?_⟩
  rw [map_window_drives]
  exact hticks

/-- Stretch by stretch, the firmware drives the sequencer. -/
theorem exists_rousing_signals {blocks : List (List Event)} (h : ∀ b ∈ blocks, Rousing b)
    (m : Machine) :
    ∃ xss : List (List Signal), firmware.drives signal m blocks.flatten = xss.flatten ∧
      xss.length = blocks.length ∧ ∀ xs ∈ xss, Sequencer.Rouses 15000 xs := by
  induction blocks generalizing m with
  | nil => exact ⟨[], rfl, rfl, fun xs hxs => by cases hxs⟩
  | cons b blocks ih =>
    obtain ⟨xss, hflat, hlen, hrouse⟩ :=
      ih (fun b' hb' => h b' (List.mem_cons_of_mem b hb')) (firmware.run m b)
    refine ⟨firmware.drives signal m b :: xss, ?_, by simp [hlen], ?_⟩
    · rw [List.flatten_cons, Mealy.drives_append, hflat, List.flatten_cons]
    · intro xs hxs
      rcases List.mem_cons.mp hxs with rfl | hxs
      · exact (h b List.mem_cons_self).rouses m
      · exact hrouse xs hxs

/-- From every reachable state, an opening under way is completed by the time the lock has
    been roused five times. -/
theorem exists_complete (events : List Event) {blocks : List (List Event)}
    (hblocks : ∀ b ∈ blocks, Rousing b) (hlen : 5 ≤ blocks.length) :
    ∃ q, q <+: blocks.flatten ∧
      ∃ N, trace (events ++ q) = (List.replicate N opening).flatten := by
  obtain ⟨xss, hflat, hxss, hrouse⟩ := exists_rousing_signals hblocks (firmware.run setup events)
  have hwaits : ∀ a, waits a ≤ 15000 := by decide
  obtain ⟨r, hr, hrest⟩ := Sequencer.exists_rest hwaits
    (Sequencer.run_deadline_le hwaits (s := Sequencer.start) (Nat.zero_le _) (signals events))
    hrouse (by omega)
  -- the stretch of signals up to rest comes from a stretch of events
  have hr' : r = firmware.drives signal (firmware.run setup events)
      (blocks.flatten.take r.length) := by
    rw [Mealy.drives_take, hflat]
    exact List.prefix_iff_eq_take.mp hr
  refine ⟨blocks.flatten.take r.length, List.take_prefix _ _, ?_⟩
  obtain ⟨k, htrace, hphase⟩ := trace_eq_cycle (events ++ blocks.flatten.take r.length)
  rw [signals, Mealy.drives_append, ← hr', ← signals, Mealy.run_append, hrest] at hphase
  -- at rest the count stands at a multiple of five
  have hk : k % 5 = 0 := (congrArg Fin.val hphase).symm
  refine ⟨k / 5, ?_⟩
  rw [htrace, ← cycle_mul_map, Nat.div_mul_cancel (Nat.dvd_of_mod_eq_zero hk)]

/-- The frame at a place of a run accepts a command exactly if it has one and `is_locking`
    is false when it begins. -/
theorem accepted_iff {events : List Event} {t : ℕ} {f : FrameInput}
    (ht : events[t]? = some (.frame f)) :
    ∃ o, (firmware.outputs setup events)[t]? = some (some o) ∧
      (o.accepted = true ↔
        o.command = 1 ∧ (firmware.run setup (events.take t)).isLocking = false) := by
  refine ⟨(loop f (firmware.run setup (events.take t))).2, ?_, loop_accepted_iff f _⟩
  rw [Mealy.outputs_getElem?, ht]
  rfl

/-- **One opening per command**: along every run from `setup`, a command is accepted exactly
    if `is_locking` is false at the start of its frame; the actions follow each
    other as wake-up, opening, power-down and power-up, over and over; no wake-up comes
    before its command and no command is accepted before the power-up that ends the
    opening before it; nothing is performed while `is_locking` is false and case 0 of
    `do_locc_step` is never run; and an opening that has begun is completed as soon as
    the lock has been given the time for it. -/
theorem one_opening_per_command (events : List Event) :
    (∀ t f, events[t]? = some (.frame f) →
      ∃ o, (firmware.outputs setup events)[t]? = some (some o) ∧
        (o.accepted = true ↔
          o.command = 1 ∧ (firmware.run setup (events.take t)).isLocking = false)) ∧
    (∃ N, actions events <+: (List.replicate N
      [.wakeupLocc, .openLocc, .powerdownLocc, .powerupLocc]).flatten) ∧
    (∀ p, p <+: trace events →
      p.count (.performed .wakeupLocc) ≤ p.count .accepted ∧
      p.count .accepted ≤ p.count (.performed .powerupLocc) + 1) ∧
    (∀ o, some o ∈ firmware.outputs setup events → o.performed.isSome = true →
      o.locking = true) ∧
    StepCase.safeState ∉ actions events ∧
    (∀ blocks : List (List Event), (∀ b ∈ blocks, Rousing b) → 5 ≤ blocks.length →
      ∃ q, q <+: blocks.flatten ∧
        ∃ N, trace (events ++ q) = (List.replicate N opening).flatten) := by
  obtain ⟨N, hactions⟩ := actions_prefix events
  refine ⟨fun t f ht => accepted_iff ht, ⟨N, hactions⟩, fun p hp => count_bounds hp,
    fun o ho hp => locking_of_performed ho hp, fun hmem => ?_,
    fun blocks hblocks hlen => exists_complete events hblocks hlen⟩
  -- every action is one of the four
  obtain ⟨cycle, hcycle, hsafe⟩ := List.mem_flatten.mp (hactions.subset hmem)
  rw [List.eq_of_mem_replicate hcycle] at hsafe
  exact absurd hsafe (by decide)

/-- A frame with nothing on the pins. -/
def frameOf (received : Option UInt8) (ticks : ℕ) : Event :=
  .frame { received := received, pind := 0xFF, pinc := 0, ticksBeforeCheck := ticks,
           ticksDuringStep := 0, behind := fun _ => 0 }

-- a command opens the lock 59 ticks after the wake-up, and a second one in between does not
example : trace [frameOf (some '\n'.toUInt8) 7, frameOf (some 'o'.toUInt8) 0,
    frameOf (some '\n'.toUInt8) 0, frameOf (some 'o'.toUInt8) 58, .tick, frameOf none 0] =
    [.accepted, .performed .wakeupLocc, .performed .openLocc] := by
  decide +kernel

end LoccFirmware.System
