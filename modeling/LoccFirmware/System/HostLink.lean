import LoccFirmware.System.CycleOrder
import LoccFirmware.System.Peripherals

/-!
# What the Host Can Tell

Everything the firmware has to say goes into one stream of bytes: the answers of the
parser, the `O` of an accepted command, the `.` of a completed opening, and the
characters of the keypad and the dial.  The two `O`s of a command look alike.  Still, the
host can do its accounts from the stream, because no character of the keypad or the dial
is one of the two marks, and because the `.` comes with the power-up and with nothing
else.
-/

namespace LoccFirmware.System

open LoccFirmware.Automata LoccFirmware.Protocol LoccFirmware.Lock LoccFirmware.Input

/-! ## The stream and what it is compared to -/

section Counts

variable (events : List Event)

/-- The bytes of an event. -/
def sentIn : Option FrameOutput → List UInt8
  | none => []
  | some o => o.sent

/-- The bytes passed to `usb_putc` in a run from `setup`. -/
def sentBytes : List UInt8 :=
  (firmware.outputs setup events).flatMap sentIn

/-- The open commands that `handle_user_input` has recognised. -/
def recognised : ℕ :=
  (returns (received events)).count 1

/-- Those of them that have started an opening. -/
def acceptedCommands : ℕ :=
  (trace events).count .accepted

/-- The openings that have been completed: case 4 of `do_locc_step` has been run. -/
def completedCycles : ℕ :=
  (trace events).count (.performed .powerupLocc)

end Counts

/-! ## Characters that are no marks -/

/-- The bytes the host counts. -/
def IsMark (c : UInt8) : Prop :=
  c = 'O'.toUInt8 ∨ c = '.'.toUInt8

/-- A scan of the keypad returns 0 or one of the sixteen characters. -/
theorem keypadScan_not_isMark {r : ℕ} {k : Keypad} (hk : k.AtRow r) (pind : UInt8) :
    ¬ IsMark (keypadScan pind k).2 := by
  have hlookup : ∀ n < 16, lookupAt n ≠ 'O'.toUInt8 ∧ lookupAt n ≠ '.'.toUInt8 := by decide
  have hr : r < 4 := hk.lt
  unfold IsMark
  rcases (keypadScan_spec hk pind).2 with ⟨i, hi, -, -, hret⟩ | ⟨-, hret⟩
  · rw [hret, not_or]
    exact hlookup (r * 4 + i) (by omega)
  · rw [hret]
    decide

/-- A scan of the dial returns a digit, a letter for the hook, or 0. -/
theorem dialScan_not_isMark (pinc : UInt8) (d : Dial) : ¬ IsMark (dialScan pinc d).2 := by
  rw [dialScan_returns]
  rcases (hookStep d.stateHangup.toNat (hangupHigh pinc)).2 with _ | _ | _
  · simp only
    split
    · -- the digits lie between the two marks
      obtain ⟨hge, hle⟩ := digitChar_range (countedImpulses pinc d)
      rintro (h | h)
      · rw [h] at hle
        exact absurd hle (by decide)
      · rw [h] at hge
        exact absurd hge (by decide)
    · unfold IsMark
      decide
  · unfold IsMark
    simp only
    decide
  · unfold IsMark
    simp only
    decide

theorem count_putcNonzero {b c : UInt8} (hb : IsMark b) (hc : ¬ IsMark c) :
    (putcNonzero c).count b = 0 := by
  apply List.count_eq_zero_of_not_mem
  unfold putcNonzero
  split
  · intro hmem
    rw [List.mem_singleton.mp hmem] at hb
    exact hc hb
  · exact List.not_mem_nil

/-! ## One frame -/

section Frame

variable {f : FrameInput} {m : Machine}

/-- The parser answers `O` to the commands it recognises and to nothing else. -/
theorem count_handleReceived (received : Option UInt8) (p : Parser) :
    (handleReceived received p).sent.count 'O'.toUInt8 =
        (if (handleReceived received p).command = 1 then 1 else 0) ∧
      (handleReceived received p).sent.count '.'.toUInt8 = 0 := by
  cases received with
  | none => exact ⟨rfl, rfl⟩
  | some c =>
    rw [handleReceived]
    rcases handleUserInput_answer c p with ⟨hcmd, hsent⟩ | ⟨hcmd, hsent | hsent⟩
    · rw [hcmd, hsent]
      decide
    · rw [hcmd, hsent]
      decide
    · rw [hcmd, hsent]
      decide

/-- The lock's turn ends an opening with `.` and says nothing else. -/
theorem driveLock_sent {s : Sequencer 4} (h : Refines m s) (f : FrameInput) :
    (driveLock f (beforeTurn f m).1).2.2 =
      if (loop f m).2.performed.map Performed.stepCase = some .powerupLocc then ['.'.toUInt8]
      else [] := by
  obtain ⟨hcheck, -⟩ :=
    h.beforeTurn (f := f) (x := signal (.frame f) (some (loop f m).2)) rfl rfl
  rw [loop_performed]
  rcases driveLock_cases f _ hcheck.lt hcheck.pos with ⟨c, -, -, -, hturn⟩ | ⟨-, hturn⟩
  · rw [hturn]
    cases c <;> rfl
  · rw [hturn]
    rfl

/-- The marks of a frame, counted one by one. -/
theorem count_marks (o : FrameOutput) :
    (marks (some o)).count .accepted = (if o.accepted then 1 else 0) ∧
      (marks (some o)).count (.performed .powerupLocc) =
        if o.performed.map Performed.stepCase = some .powerupLocc then 1 else 0 := by
  unfold marks
  rw [List.count_append, List.count_append]
  cases o.accepted <;> rcases o.performed with _ | p
  · exact ⟨rfl, rfl⟩
  · cases hp : p.stepCase <;> simp [hp]
  · exact ⟨rfl, rfl⟩
  · cases hp : p.stepCase <;> simp [hp]

/-- **One frame** sends an `O` for a command recognised and one more if it is accepted,
    and a `.` if it completes an opening. -/
theorem count_sent {s : Sequencer 4} (h : Refines m s) {r : ℕ} (hrow : m.keypad.AtRow r)
    (f : FrameInput) :
    (loop f m).2.sent.count 'O'.toUInt8 =
        (if (handleReceived f.received m.parser).command = 1 then 1 else 0) +
          (marks (some (loop f m).2)).count .accepted ∧
      (loop f m).2.sent.count '.'.toUInt8 =
        (marks (some (loop f m).2)).count (.performed .powerupLocc) := by
  obtain ⟨hparserO, hparserDot⟩ := count_handleReceived f.received m.parser
  obtain ⟨hacc, hdone⟩ := count_marks (loop f m).2
  have hkey := keypadScan_not_isMark hrow f.pind
  have hdial := dialScan_not_isMark f.pinc m.dial
  rw [loop_sent, hacc, hdone, driveLock_sent h, loop_accepted]
  -- the stream of a frame is in five parts, the last two without marks
  simp only [List.count_append, hparserO, hparserDot, count_putcNonzero (Or.inl rfl) hkey,
    count_putcNonzero (Or.inl rfl) hdial, count_putcNonzero (Or.inr rfl) hkey,
    count_putcNonzero (Or.inr rfl) hdial]
  constructor
  · split_ifs <;> rfl
  · split_ifs <;> rfl

end Frame

/-! ## Whole runs -/

theorem recognised_tick (events : List Event) :
    recognised (events ++ [.tick]) = recognised events := by
  unfold recognised received
  rw [List.filterMap_append, List.filterMap_cons_none rfl, List.filterMap_nil, List.append_nil]

theorem recognised_frame (events : List Event) (f : FrameInput) :
    recognised (events ++ [.frame f]) =
      recognised events +
        if (handleReceived f.received (firmware.run setup events).parser).command = 1 then 1
        else 0 := by
  -- the parser in the machine is the parser run on the bytes alone
  rw [parser_run]
  unfold recognised received returns
  rw [List.filterMap_append]
  cases hreceived : f.received with
  | none => simp [Event.received, hreceived, handleReceived]
  | some c =>
    simp only [Event.received, hreceived, List.filterMap_cons, List.filterMap_nil]
    rw [Mealy.outputs_concat, List.count_append, List.count_singleton]
    simp only [beq_iff_eq]
    rfl

/-- Command by command and power-up by power-up, the marks in the stream are those of the
    trace. -/
theorem count_sentBytes (events : List Event) :
    (sentBytes events).count 'O'.toUInt8 = recognised events + acceptedCommands events ∧
      (sentBytes events).count '.'.toUInt8 = completedCycles events := by
  refine Mealy.history_induction (M := firmware) (s := setup)
    (P := fun is _ os =>
      (os.flatMap sentIn).count 'O'.toUInt8 = recognised is + (os.flatMap marks).count .accepted ∧
        (os.flatMap sentIn).count '.'.toUInt8 =
          (os.flatMap marks).count (.performed .powerupLocc))
    ⟨rfl, rfl⟩ (fun is e ih => ?_) events
  obtain ⟨hO, hdot⟩ := ih
  rw [List.flatMap_append, List.flatMap_append, List.flatMap_singleton, List.flatMap_singleton]
  simp only [List.count_append, hO, hdot]
  cases e with
  | tick =>
    rw [recognised_tick]
    exact ⟨rfl, rfl⟩
  | frame f =>
    obtain ⟨r, hrow⟩ := keypad_run_atRow is
    have hstep : (firmware.step (firmware.run setup is) (.frame f)).2 =
      some (loop f (firmware.run setup is)).2 := rfl
    obtain ⟨hframeO, hframeDot⟩ := count_sent (refines_run is) hrow f
    rw [recognised_frame, hstep, sentIn, hframeO, hframeDot]
    constructor
    · omega
    · rfl

/-- An opening is under way exactly when one command more has been accepted than openings
    have been completed. -/
theorem acceptedCommands_eq (events : List Event) :
    acceptedCommands events = completedCycles events +
      if (firmware.run setup events).isLocking then 1 else 0 := by
  obtain ⟨k, htrace, hphase⟩ := trace_eq_cycle events
  -- phase 0 is left with a command and phase 4 with a power-up
  have hcycle := Sequencer.count_cycle (a := (0 : Fin 5)) (b := 4) (by decide) k
  rw [← count_phaseMark, ← count_phaseMark, ← htrace] at hcycle
  have hlocking : (firmware.run setup events).isLocking = true ↔ 0 < k % 5 := by
    rw [(refines_run events).locking, hphase, Ne, Fin.ext_iff, Nat.pos_iff_ne_zero]
    rfl
  have hlast : k % 5 ≤ 4 := Nat.le_of_lt_succ (Nat.mod_lt k (by decide))
  show (trace events).count (phaseMark 0) = (trace events).count (phaseMark 4) + _
  rw [hcycle]
  simp only [hlocking]
  congr 1
  exact if_congr ⟨fun h => h.1, fun h => ⟨h, hlast⟩⟩ rfl rfl

/-- **The host can account for the openings.**  At every moment of every run, the bytes
    sent hold an `O` for every open command recognised and another for every one
    accepted, and a `.` for every opening completed; and there is one more accepted than
    completed while `is_locking` is true, and as many when it is not.  A command is accepted
    exactly if `is_locking` is false at the start of its frame. -/
theorem host_accounts (events : List Event) :
    (sentBytes events).count 'O'.toUInt8 = recognised events + acceptedCommands events ∧
    (sentBytes events).count '.'.toUInt8 = completedCycles events ∧
    acceptedCommands events = (sentBytes events).count '.'.toUInt8 +
      (if (firmware.run setup events).isLocking then 1 else 0) ∧
    ∀ t f, events[t]? = some (.frame f) →
      ∃ o, (firmware.outputs setup events)[t]? = some (some o) ∧
        (o.accepted = true ↔
          o.command = 1 ∧ (firmware.run setup (events.take t)).isLocking = false) := by
  obtain ⟨hO, hdot⟩ := count_sentBytes events
  refine ⟨hO, hdot, ?_, fun t f ht => accepted_iff ht⟩
  rw [hdot]
  exact acceptedCommands_eq events

end LoccFirmware.System
