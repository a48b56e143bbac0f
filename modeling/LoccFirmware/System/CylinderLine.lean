import LoccFirmware.System.CycleOrder
import LoccFirmware.System.PortPhase
import LoccFirmware.Cylinder.Waveform

/-!
# The Cylinder's Line

The cylinder has two pins and sees nothing of the program behind them.  Most of the time
they rest, while the firmware waits for its timer and goes round its main loop; only
`wakeup_locc` and `sendCylinderTelegram` move the data line about, in busy waits.  Here all
of it is accounted for, over whole runs: how the pins rest between any two events, and
which busy waits there have been, in which order.
-/

namespace LoccFirmware.System

open LoccFirmware.Automata LoccFirmware.Coding LoccFirmware.Cylinder LoccFirmware.Lock

/-! ## What the firmware does to the pins -/

/-- The busy waits of a case of `do_locc_step`, on a powered cylinder. -/
def heldBy (behind : ℕ → BitVec 16) : StepCase → List Held
  | .wakeupLocc => [halfBit true .high, ⟨.low, true, 2 * cylinderTelegramTimingDelay⟩]
  | .openLocc =>
    (encode .high .low ((transmitted (memoryAt openTelegram behind) 8).flatMap (msbFirst 8))).map
      (halfBit true)
  | _ => []

/-- How the pins rest after a case of `do_locc_step`, and before the first one: the level of
the data line, and whether the supply is on. -/
def restingPins (last : Option StepCase) : Level × Bool :=
  if last = some .powerdownLocc then (.low, false) else (.high, true)

/-- A case of `do_locc_step` that was run, with the words behind `openTelegram`. -/
structure Act where
  stepCase : StepCase
  behind : ℕ → BitVec 16

/-- The act in an event, if there is one. -/
def act? : Event → Option FrameOutput → Option Act
  | .frame f, some o => o.performed.map fun p => { stepCase := p.stepCase, behind := f.behind }
  | _, _ => none

/-- The acts of a run from `setup`. -/
def acts (events : List Event) : List Act :=
  (firmware.drives act? setup events).filterMap id

/-- The case that was run last. -/
def lastCase (as : List Act) : Option StepCase :=
  as.getLast?.map Act.stepCase

/-! ## A telegram -/

theorem transmitted_openTelegram (behind : ℕ → BitVec 16) :
    transmitted (memoryAt openTelegram behind) 8 =
      (openTelegram ++ [behind 0]).map BitVec.toNat := by
  rw [← range'_map_memoryAt openTelegram behind, List.map_map]
  rfl

/-- The half-bits of an opening, read as a telegram: the octets of `openTelegram` and the low
    byte of the word behind it. -/
theorem receive_heldBy_openLocc (behind : ℕ → BitVec 16) :
    receive .high .low ((heldBy behind .openLocc).map Held.level) =
      some ((openTelegram ++ [behind 0]).map fun x => x.toNat % 256) := by
  have hlevel : Held.level ∘ halfBit true = id := rfl
  rw [heldBy, List.map_map, hlevel, List.map_id, receive_encode_octets (by decide),
    transmitted_openTelegram, List.map_map]
  rfl

/-! ## Busy waits -/

theorem map_stepCase_drives (m : Machine) (events : List Event) :
    ((firmware.drives act? m events).filterMap id).map Act.stepCase =
      ((firmware.outputs m events).flatMap marks).filterMap Mark.action? := by
  induction events generalizing m with
  | nil => rfl
  | cons e events ih =>
    rw [Mealy.drives_cons, Mealy.outputs_cons, List.flatMap_cons, List.filterMap_append, ← ih]
    cases e with
    | tick => rfl
    | frame f =>
      have hout : (firmware.step m (.frame f)).2 = some (loop f m).2 := rfl
      rw [hout, act?, marks]
      cases (loop f m).2.performed <;> cases (loop f m).2.accepted <;> rfl

theorem map_stepCase_acts (events : List Event) :
    (acts events).map Act.stepCase = actions events :=
  map_stepCase_drives setup events

/-- On a powered cylinder each case leaves its busy waits behind, and no others. -/
theorem drive_held {c : StepCase} {p : Port} (h : InPhase c.number p) (behind : ℕ → BitVec 16) :
    (c.drive behind p).held = p.held ++ heldBy behind c := by
  cases c with
  | safeState => exact (List.append_nil _).symm
  | wakeupLocc =>
    have hpow := h.powered (by decide)
    simp [StepCase.drive, wakeupLocc, heldBy, halfBit, hpow]
  | openLocc =>
    obtain ⟨hheld, -⟩ := sendCylinderTelegram_spec (memoryAt openTelegram behind) 8 p
    rw [StepCase.drive, openLocc, hheld, h.powered (by decide), heldBy, transmitted,
      List.flatMap_map]
  | powerdownLocc => exact (List.append_nil _).symm
  | powerupLocc => exact (List.append_nil _).symm

/-- One event adds the busy waits of its act. -/
theorem step_held {m : Machine} (h : Settled m) (e : Event) :
    (firmware.step m e).1.locc.port.held =
      m.locc.port.held ++
        (act? e (firmware.step m e).2).toList.flatMap fun a => heldBy a.behind a.stepCase := by
  cases e with
  | tick =>
    have hstep : (firmware.step m .tick).1.locc = timerOverflow m.locc := rfl
    rw [hstep, timerOverflow_port]
    exact (List.append_nil _).symm
  | frame f =>
    obtain ⟨s, hs⟩ := h.refines
    obtain ⟨hcheck, -⟩ :=
      hs.beforeTurn (f := f) (x := signal (.frame f) (some (loop f m).2)) rfl rfl
    -- what comes before the lock's turn puts nothing on the line
    have hbefore : (beforeTurn f m).1.locc.port.held = m.locc.port.held := by
      rcases beforeTurn_cases f m with ⟨-, -, hturn⟩ | ⟨-, hturn⟩
      · rw [hturn, startLocking, ticks_port]
      · rw [hturn, ticks_port]
    have hstep : (firmware.step m (.frame f)).1.locc.port.held =
        (driveLock f (beforeTurn f m).1).1.locc.port.held := rfl
    have hact : act? (.frame f) (firmware.step m (.frame f)).2 =
        (driveLock f (beforeTurn f m).1).2.1.map
          fun p => { stepCase := p.stepCase, behind := f.behind } := rfl
    rw [hstep, hact, ← hbefore]
    rcases driveLock_cases f (beforeTurn f m).1 hcheck.lt hcheck.pos with
      ⟨c, -, -, hc, hturn⟩ | ⟨-, hturn⟩
    · have hphase : InPhase c.number (beforeTurn f m).1.locc.port := hc ▸ h.beforeTurn
      rw [hturn]
      exact (drive_held hphase f.behind).trans (by simp)
    · rw [hturn]
      simp

theorem acts_concat (events : List Event) (e : Event) :
    acts (events ++ [e]) =
      acts events ++ (act? e (firmware.step (firmware.run setup events) e).2).toList := by
  rw [acts, Mealy.drives_append, List.filterMap_append, ← acts, Mealy.drives_cons,
    Mealy.drives_nil, List.filterMap_cons]
  cases act? e (firmware.step (firmware.run setup events) e).2 <;> rfl

theorem run_held (events : List Event) :
    (firmware.run setup events).locc.port.held =
      (acts events).flatMap fun a => heldBy a.behind a.stepCase := by
  induction events using List.reverseRecOn with
  | nil => rfl
  | append_singleton events e ih =>
    rw [Mealy.run_concat, step_held (settled_run events), ih, acts_concat, List.flatMap_append]

/-! ## Resting pins -/

/-- The number of a phase of the port: on or off. -/
def portPhase (last : Option StepCase) : ℕ :=
  if last = some .powerdownLocc then 4 else 0

theorem portPhase_ne_four {last : Option StepCase} (h : last ≠ some .powerdownLocc) :
    portPhase last ≠ 4 := by
  rw [portPhase, if_neg h]
  decide

theorem InPhase.pins {last : Option StepCase} {p : Port} (h : InPhase (portPhase last) p) :
    (p.level, p.powered) = restingPins last := by
  rw [restingPins]
  split
  · rename_i hdown
    obtain ⟨hportd, hddrd⟩ := h.off (by rw [portPhase, if_pos hdown])
    rw [Port.level, Port.powered, hportd, hddrd]
    decide
  · rename_i hup
    obtain ⟨hportd, hddrd⟩ := h.on (portPhase_ne_four hup)
    rw [Port.level, Port.powered, hportd, hddrd]
    decide

/-- Each case leaves the port on or off. -/
theorem InPhase.of_next {c : StepCase} {p : Port} (h : InPhase ((c.number + 1) % 5) p) :
    InPhase (portPhase (some c)) p := by
  cases c with
  | powerdownLocc => exact h
  | safeState => exact .of_on (h.on (by decide)).1 (h.on (by decide)).2 h.held (by decide)
  | wakeupLocc => exact .of_on (h.on (by decide)).1 (h.on (by decide)).2 h.held (by decide)
  | openLocc => exact .of_on (h.on (by decide)).1 (h.on (by decide)).2 h.held (by decide)
  | powerupLocc => exact h

/-- One event leaves the pins as its act does, or as they were. -/
theorem step_portPhase {m : Machine} (h : Settled m) {last : Option StepCase}
    (hlast : InPhase (portPhase last) m.locc.port) (e : Event) :
    InPhase (portPhase (((act? e (firmware.step m e).2).map Act.stepCase).or last))
      (firmware.step m e).1.locc.port := by
  cases e with
  | tick =>
    have hstep : (firmware.step m .tick).1.locc = timerOverflow m.locc := rfl
    rw [hstep, timerOverflow_port]
    exact hlast
  | frame f =>
    obtain ⟨s, hs⟩ := h.refines
    obtain ⟨hcheck, -⟩ :=
      hs.beforeTurn (f := f) (x := signal (.frame f) (some (loop f m).2)) rfl rfl
    have hbefore : (beforeTurn f m).1.locc.port = m.locc.port := by
      rcases beforeTurn_cases f m with ⟨-, -, hturn⟩ | ⟨-, hturn⟩
      · rw [hturn, startLocking, ticks_port]
      · rw [hturn, ticks_port]
    have hport : (firmware.step m (.frame f)).1.locc.port = (loop f m).1.locc.port := rfl
    have hact : act? (.frame f) (firmware.step m (.frame f)).2 =
        (driveLock f (beforeTurn f m).1).2.1.map
          fun p => { stepCase := p.stepCase, behind := f.behind } := rfl
    rw [hport, loop_port, hact]
    apply InPhase.shiftregOut
    rcases driveLock_cases f (beforeTurn f m).1 hcheck.lt hcheck.pos with
      ⟨c, -, -, hc, hturn⟩ | ⟨-, hturn⟩
    · have hphase : InPhase c.number (beforeTurn f m).1.locc.port := hc ▸ h.beforeTurn
      rw [hturn]
      exact (hphase.drive f.behind).of_next
    · rw [hturn]
      simp only [Option.map_none, Option.none_or, ticks_port]
      exact hbefore ▸ hlast

theorem lastCase_append (as : List Act) (a : Option Act) :
    lastCase (as ++ a.toList) = (a.map Act.stepCase).or (lastCase as) := by
  rw [lastCase, List.getLast?_append]
  cases a <;> rfl

theorem run_portPhase (events : List Event) :
    InPhase (portPhase (lastCase (acts events))) (firmware.run setup events).locc.port := by
  induction events using List.reverseRecOn with
  | nil => exact settled_setup.port
  | append_singleton events e ih =>
    rw [Mealy.run_concat, acts_concat, lastCase_append]
    exact step_portPhase (settled_run events) ih e

/-! ## The theorem -/

/-- **The cylinder's line**: after every run from `setup`, and so between any two events of a
    run, the data line rests high with the supply on, except that it rests low with the
    supply off after a power-down.  The busy waits have been those of the acts, in their
    order and with no others in between; the acts are those of whole openings, up to the
    last one.  And the half-bits of each opening are one telegram: the eight octets of
    `openTelegram` and a ninth from behind it. -/
theorem line_carries_openings (events : List Event) :
    ((firmware.run setup events).locc.port.level, (firmware.run setup events).locc.port.powered) =
        restingPins (lastCase (acts events)) ∧
      (firmware.run setup events).locc.port.held =
        ((acts events).flatMap fun a => heldBy a.behind a.stepCase) ∧
      (∃ N, (acts events).map Act.stepCase <+: (List.replicate N
        [StepCase.wakeupLocc, .openLocc, .powerdownLocc, .powerupLocc]).flatten) ∧
      ∀ a ∈ acts events, a.stepCase = .openLocc →
        receive .high .low ((heldBy a.behind a.stepCase).map Held.level) =
          some ((openTelegram ++ [a.behind 0]).map fun x => x.toNat % 256) := by
  refine ⟨(run_portPhase events).pins, run_held events, ?_, fun a _ hopen => ?_⟩
  · rw [map_stepCase_acts]
    exact actions_prefix events
  · rw [hopen]
    exact receive_heldBy_openLocc a.behind

end LoccFirmware.System
