import LoccFirmware.System.ByteAccess

/-!
# The Main Loop with Byte-wise Checks

A check of the timer that is torn by the interrupt may report a wait as over too early.
Here the main loop runs with such checks: every frame has its own placement of ticks among
the four loads.  There may be any number of them, since a control request that is handled
in an interrupt of its own can hold up a check for as long as it likes.

What a torn check brings about can also be brought about by time alone: a frame that
reports the timer as expired with some ticks left does what the frame with an undivided
check does that many ticks later.  So every run with byte-wise checks is, state by state
and output by output, a run of `firmware` on events that differ in their ticks only, and
whatever holds for all runs of `firmware` holds here.
-/

namespace LoccFirmware.System

open LoccFirmware.Automata LoccFirmware.Coding LoccFirmware.Input LoccFirmware.Lock

/-! ## One check -/

/-- An order of the four loads and any ticks among them. -/
structure LoadOrder where
  order : List Access
  loads : order.count .load = 4

/-- The ticks among the loads. -/
def LoadOrder.ticks (p : LoadOrder) : ℕ :=
  p.order.count .tick

/-- `timer_is_expired`, on the value that is loaded. -/
def timerIsExpiredLoaded (l : Locc) (p : LoadOrder) : Bool :=
  let s := accesses.run { locc := l, bytes := [] } p.order
  timerIsExpired { s.locc with waitTicks := wordOf s.bytes }

/-- The orders with one tick at most are among these. -/
def Interleaving.toLoadOrder (p : Interleaving) : LoadOrder where
  order := p.order
  loads := p.loads

theorem timerIsExpiredLoaded_toLoadOrder (l : Locc) (p : Interleaving) :
    timerIsExpiredLoaded l p.toLoadOrder = timerIsExpiredBytewise l p :=
  rfl

/-! ## One frame -/

/-- A frame whose ticks during the timer check are placed among its loads. -/
structure BytewiseFrame extends FrameInput where
  check : LoadOrder

/-- The ticks between the first load and the last one. -/
def BytewiseFrame.ticksInCheck (b : BytewiseFrame) : ℕ :=
  b.check.ticks

/-- `do_next_locc_step`, with the check of the timer done byte by byte. -/
def doNextLoccStepBytewise (p : LoadOrder) (during : ℕ) (behind : ℕ → BitVec 16) (l : Locc) :
    Stepped :=
  let checked := (accesses.run { locc := l, bytes := [] } p.order).locc
  let step :=
    if timerIsExpiredLoaded l p then doLoccStep during behind checked
    else (ticks during checked, none)
  let performed := step.2.map fun c => { stepCase := c, entry := l.port : Performed }
  if step.1.currentLoccStep > 0 then
    { locc := step.1, performed := performed, sent := [], again := true }
  else
    { locc := step.1, performed := performed, sent := ['.'.toUInt8], again := false }

/-- The lock's turn.  Outside an opening nothing is loaded and only the ticks remain. -/
def driveLockBytewise (b : BytewiseFrame) (m : Machine) :
    Machine × Option Performed × List UInt8 :=
  if m.isLocking then
    let stepped := doNextLoccStepBytewise b.check b.ticksDuringStep b.behind m.locc
    ({ m with isLocking := stepped.again, locc := stepped.locc }, stepped.performed, stepped.sent)
  else
    ({ m with locc := ticks (b.ticksInCheck + b.ticksDuringStep) m.locc }, none, [])

/-- The rest of a frame, once the lock has had its turn. -/
def endFrame (f : FrameInput) (m : Machine) (driven : Machine × Option Performed × List UInt8) :
    Machine × FrameOutput :=
  let handled := handleReceived f.received m.parser
  let turn := beforeTurn f m
  let pressed := keypadScan f.pind driven.1.keypad
  let dialled := dialScan f.pinc driven.1.dial
  let shifted := shiftregOut { driven.1 with keypad := pressed.1, dial := dialled.1 }
  (shifted.1,
    { command := handled.command
      accepted := turn.2
      locking := turn.1.isLocking
      performed := driven.2.1
      spdr := shifted.2
      sent := handled.sent ++ (if turn.2 then ['O'.toUInt8] else []) ++ driven.2.2 ++
        putcNonzero pressed.2 ++ putcNonzero dialled.2 })

/-- `loop`, with the check of the timer done byte by byte. -/
def loopBytewise (b : BytewiseFrame) (m : Machine) : Machine × FrameOutput :=
  endFrame b.toFrameInput m (driveLockBytewise b (beforeTurn b.toFrameInput m).1)

/-- A frame with its byte-wise check, or a tick between two frames. -/
inductive BytewiseEvent where
  | tick
  | frame (b : BytewiseFrame)

/-- The firmware with byte-wise checks. -/
def bytewiseFirmware : Mealy Machine BytewiseEvent (Option FrameOutput) where
  step m
    | .tick => ({ m with locc := timerOverflow m.locc }, none)
    | .frame b => ((loopBytewise b m).1, some (loopBytewise b m).2)

/-! ## The same frame with an undivided check -/

/-- The ticks that a frame treats as passed although they are left: those in `wait_ticks`
when the check reports the timer as expired. -/
def BytewiseFrame.ticksSkipped (b : BytewiseFrame) (m : Machine) : ℕ :=
  let turn := (beforeTurn b.toFrameInput m).1
  if turn.isLocking && timerIsExpiredLoaded turn.locc b.check then turn.locc.waitTicks.toNat
  else 0

/-- The frame with an undivided check that does the same: it comes as much later as ticks
are skipped, and the ticks of the check are among them or come after it. -/
def BytewiseFrame.undivided (b : BytewiseFrame) (m : Machine) : FrameInput :=
  { b.toFrameInput with
    ticksBeforeCheck := b.ticksBeforeCheck + b.ticksSkipped m
    ticksDuringStep := b.ticksInCheck - b.ticksSkipped m + b.ticksDuringStep }

/-- The event for `firmware` that stands for an event of `bytewiseFirmware`. -/
def undivided (m : Machine) : BytewiseEvent → Event
  | .tick => .tick
  | .frame b => .frame (b.undivided m)

/-- A frame without its ticks. -/
def FrameInput.untimed (f : FrameInput) : FrameInput :=
  { f with ticksBeforeCheck := 0, ticksDuringStep := 0 }

/-- What an event is apart from its ticks: a frame, or none. -/
def Event.untimed : Event → Option FrameInput
  | .tick => none
  | .frame f => some f.untimed

/-- The same for an event with a byte-wise check. -/
def BytewiseEvent.untimed : BytewiseEvent → Option FrameInput
  | .tick => none
  | .frame b => some b.toFrameInput.untimed

/-- The events for `firmware` that stand for a run with byte-wise checks. -/
def undividedEvents (events : List BytewiseEvent) : List Event :=
  bytewiseFirmware.rewrites undivided setup events

/-! ## Ticks -/

theorem accesses_run_locc (s : Loading) (as : List Access) :
    (accesses.run s as).locc = ticks (as.count .tick) s.locc := by
  induction as generalizing s with
  | nil => rfl
  | cons a as ih =>
    rw [Mealy.run_cons, ih]
    cases a with
    | load => rw [List.count_cons_of_ne (by decide)]; rfl
    | tick => rw [List.count_cons_self]; rfl

theorem ticks_startLocking (n : ℕ) (l : Locc) :
    ticks n (startLocking l) = startLocking (ticks n l) := by
  induction n generalizing l with
  | zero => rfl
  | succ n ih =>
    have hstart : timerOverflow (startLocking l) = startLocking (timerOverflow l) := by
      unfold timerOverflow startLocking
      split <;> rfl
    rw [ticks, hstart, ih, ticks]

section Frame

variable (b : BytewiseFrame) (m : Machine)

/-- Ticks before the check only move the timer on. -/
theorem beforeTurn_undivided :
    beforeTurn (b.undivided m) m =
      ({ (beforeTurn b.toFrameInput m).1 with
          locc := ticks (b.ticksSkipped m) (beforeTurn b.toFrameInput m).1.locc },
        (beforeTurn b.toFrameInput m).2) := by
  generalize hskip : b.ticksSkipped m = n
  simp only [beforeTurn, BytewiseFrame.undivided, hskip, acceptCommand, ticks_add]
  split
  · rw [ticks_startLocking]
  · rfl

theorem beforeTurn_waitTicks_le (f : FrameInput) :
    (beforeTurn f m).1.locc.waitTicks.toNat ≤ m.locc.waitTicks.toNat := by
  rcases beforeTurn_cases f m with ⟨-, -, hturn⟩ | ⟨-, hturn⟩
  · rw [hturn, startLocking, ticks_waitTicks]
    exact Nat.sub_le _ _
  · rw [hturn, ticks_waitTicks]
    exact Nat.sub_le _ _

theorem loop_eq_endFrame (f : FrameInput) :
    loop f m = endFrame f m (driveLock f (beforeTurn f m).1) :=
  rfl

end Frame

/-! ## What a check reports -/

/-- What has been loaded after `n` ticks: each byte was taken from the timer as it stood after
some of them. -/
structure Loaded (l : Locc) (n : ℕ) (s : Loading) : Prop where
  locc : s.locc = ticks n l
  bytes : ∀ i b, s.bytes[i]? = some b → ∃ t ≤ n, b = byteAt (ticks t l).waitTicks i

theorem Loaded.run {l : Locc} {n : ℕ} {s : Loading} (h : Loaded l n s) (as : List Access) :
    Loaded l (n + as.count .tick) (accesses.run s as) ∧
      (accesses.run s as).bytes.length = s.bytes.length + as.count .load := by
  induction as generalizing s n with
  | nil => exact ⟨h, rfl⟩
  | cons a as ih =>
    cases a with
    | load =>
      have hnext : Loaded l n (accesses.step s .load).1 := by
        refine ⟨h.locc, fun i b hb => ?_⟩
        rcases getElem?_concat_eq_some_iff.mp hb with hold | ⟨rfl, rfl⟩
        · exact h.bytes i b hold
        · exact ⟨n, Nat.le_refl n, by rw [h.locc]⟩
      obtain ⟨hloaded, hlen⟩ := ih hnext
      have hone : (accesses.step s .load).1.bytes.length = s.bytes.length + 1 :=
        List.length_append
      rw [Mealy.run_cons, List.count_cons_self, List.count_cons_of_ne (by decide)]
      exact ⟨hloaded, by omega⟩
    | tick =>
      have hnext : Loaded l (n + 1) (accesses.step s .tick).1 := by
        refine ⟨?_, fun i b hb => ?_⟩
        · rw [ticks_add, ← h.locc]
          rfl
        · obtain ⟨t, ht, hbyte⟩ := h.bytes i b hb
          exact ⟨t, Nat.le_succ_of_le ht, hbyte⟩
      obtain ⟨hloaded, hlen⟩ := ih hnext
      rw [Mealy.run_cons, List.count_cons_self, List.count_cons_of_ne (by decide)]
      rw [Nat.add_right_comm] at hloaded
      exact ⟨hloaded, hlen⟩

/-- How many ticks a check can overlook: none if none came among its loads, and otherwise 255
more than came. -/
def LoadOrder.overlooked (p : LoadOrder) : ℕ :=
  if p.ticks = 0 then 0 else 255 + p.ticks

section Check

variable {l : Locc} {p : LoadOrder}

theorem loaded_check (l : Locc) (p : LoadOrder) :
    Loaded l p.ticks (accesses.run { locc := l, bytes := [] } p.order) ∧
      (accesses.run { locc := l, bytes := [] } p.order).bytes.length = 4 := by
  have hstart : Loaded l 0 { locc := l, bytes := [] } := ⟨rfl, fun i b hb => by simp at hb⟩
  obtain ⟨hloaded, hlen⟩ := hstart.run p.order
  rw [Nat.zero_add] at hloaded
  rw [p.loads] at hlen
  exact ⟨hloaded, hlen⟩

/-- A timer at zero is never taken for a running one. -/
theorem expired_of_zero (hzero : l.waitTicks.toNat = 0) : timerIsExpiredLoaded l p = true := by
  obtain ⟨hloaded, hlen⟩ := loaded_check l p
  have hbytes : ∀ b ∈ (accesses.run { locc := l, bytes := [] } p.order).bytes, b = 0 := by
    intro b hb
    obtain ⟨i, hi⟩ := List.mem_iff_getElem?.mp hb
    obtain ⟨t, -, rfl⟩ := hloaded.bytes i b hi
    rw [← UInt8.toNat_inj, byteAt_toNat, ticks_waitTicks, hzero, Nat.zero_sub]
    simp [digit]
  rw [timerIsExpiredLoaded, timerIsExpired_iff, List.eq_replicate_of_mem hbytes, hlen]
  show (wordOf (List.replicate 4 0)).toNat = 0
  decide

/-- Every byte of an expired timer has been zero after some of the ticks. -/
theorem digit_of_expired (hexp : timerIsExpiredLoaded l p = true) {i : ℕ} (hi : i < 4) :
    ∃ t ≤ p.ticks, digit 256 (l.waitTicks.toNat - t) i = 0 := by
  obtain ⟨hloaded, hlen⟩ := loaded_check l p
  rw [timerIsExpiredLoaded, timerIsExpired_iff] at hexp
  rw [← hlen] at hi
  obtain ⟨t, ht, hbyte⟩ := hloaded.bytes i _ (List.getElem?_eq_getElem hi)
  refine ⟨t, ht, ?_⟩
  rw [← ticks_waitTicks, ← byteAt_toNat, ← hbyte]
  rw [wordOf_toNat _ hlen] at hexp
  exact Nat.digits_zero_of_eq_zero (by decide) hexp _
    (List.mem_map_of_mem (List.getElem_mem hi))

/-- A running timer is taken for an expired one only if ticks come during the check, and then
    not much more is left than comes. -/
theorem left_le_of_expired (hexp : timerIsExpiredLoaded l p = true)
    (hwait : l.waitTicks.toNat ≤ 15000) : l.waitTicks.toNat ≤ p.overlooked := by
  obtain ⟨t, ht, hlow⟩ := digit_of_expired hexp (show 0 < 4 by decide)
  obtain ⟨t', ht', hhigh⟩ := digit_of_expired hexp (show 1 < 4 by decide)
  -- no wait reaches the third byte, so with the second byte at zero the lowest is all there is
  rw [digit, pow_zero, Nat.div_one] at hlow
  rw [digit, pow_one] at hhigh
  rw [LoadOrder.overlooked]
  split
  · omega
  · omega

end Check

/-! ## The lock's turn -/

section Turn

variable {b : BytewiseFrame} {m : Machine} {f : FrameInput}

/-- The case that is run does not depend on how the ticks were spread. -/
theorem doNextLoccStepBytewise_of_expired {l : Locc} {c : StepCase} {p : LoadOrder}
    (during : ℕ) (behind : ℕ → BitVec 16) (hexp : timerIsExpiredLoaded l p = true)
    (hc : l.currentLoccStep = c.number) :
    doNextLoccStepBytewise p during behind l =
      { locc := { waitTicks := c.wait, currentLoccStep := (c.number + 1) % 5,
                  port := c.drive behind l.port }
        performed := some { stepCase := c, entry := l.port }
        sent := if c = .powerupLocc then ['.'.toUInt8] else []
        again := decide (c ≠ .powerupLocc) } := by
  have hstep : (ticks (p.order.count .tick) l).currentLoccStep = c.number := by
    rw [ticks_currentLoccStep, hc]
  simp only [doNextLoccStepBytewise, if_pos hexp, accesses_run_locc,
    doLoccStep_eq during behind hstep, ticks_port]
  cases c <;> rfl

/-- The lock's turn with a check that reports the timer as expired is the turn with an
    undivided one, once the ticks that were left have passed. -/
theorem driveLockBytewise_of_expired (hbehind : f.behind = b.behind)
    (hlock : m.isLocking = true) (hexp : timerIsExpiredLoaded m.locc b.check = true)
    (hlt : m.locc.currentLoccStep < 5) :
    driveLockBytewise b m =
      driveLock f { m with locc := ticks m.locc.waitTicks.toNat m.locc } := by
  obtain ⟨c, hc⟩ := exists_stepCase hlt
  have hdue : timerIsExpired (ticks m.locc.waitTicks.toNat m.locc) = true := by
    rw [timerIsExpired_iff, ticks_waitTicks, Nat.sub_self]
  have hstep : (ticks m.locc.waitTicks.toNat m.locc).currentLoccStep = c.number := by
    rw [ticks_currentLoccStep, hc]
  rw [driveLockBytewise, if_pos hlock, driveLock, if_pos hlock,
    doNextLoccStepBytewise_of_expired _ _ hexp hc.symm,
    doNextLoccStep_of_expired _ _ hdue hstep]
  simp only [ticks_port, hbehind]

/-- If the check reports it as running, or is not made, the ticks during it are some of those
    after it. -/
theorem driveLockBytewise_of_not_expired
    (hticks : f.ticksDuringStep = b.ticksInCheck + b.ticksDuringStep)
    (hno : ¬ (m.isLocking = true ∧ timerIsExpiredLoaded m.locc b.check = true))
    (hpos : m.isLocking = true → 0 < m.locc.currentLoccStep) :
    driveLockBytewise b m = driveLock f m := by
  by_cases hlock : m.isLocking = true
  · have hexp : ¬ timerIsExpiredLoaded m.locc b.check = true := fun h => hno ⟨hlock, h⟩
    have hrunning : ¬ timerIsExpired m.locc = true := fun h =>
      hexp (expired_of_zero ((timerIsExpired_iff _).mp h))
    rw [driveLockBytewise, if_pos hlock, driveLock, if_pos hlock,
      doNextLoccStep_of_running _ _ hrunning (hpos hlock), hticks]
    simp only [doNextLoccStepBytewise, if_neg hexp, accesses_run_locc, ← ticks_add,
      ticks_currentLoccStep]
    rw [if_pos (hpos hlock)]
    rfl
  · rw [driveLockBytewise, if_neg hlock, driveLock, if_neg hlock, hticks]

end Turn

/-! ## Every run -/

/-- The lock's variables agree with some state of the sequencer. -/
def Tracked (m : Machine) : Prop :=
  ∃ s, Refines m s

theorem Tracked.step {m : Machine} (h : Tracked m) (e : Event) :
    Tracked (firmware.step m e).1 := by
  obtain ⟨s, hs⟩ := h
  exact ⟨_, firmware_refines.state m s e hs⟩

/-- At the lock's turn the step has a case, and one that is due during an opening. -/
theorem Tracked.beforeTurn {m : Machine} (h : Tracked m) (f : FrameInput) :
    (beforeTurn f m).1.locc.currentLoccStep < 5 ∧
      ((beforeTurn f m).1.isLocking = true → 0 < (beforeTurn f m).1.locc.currentLoccStep) := by
  obtain ⟨s, hs⟩ := h
  obtain ⟨hcheck, -⟩ :=
    hs.beforeTurn (f := f) (x := signal (.frame f) (some (loop f m).2)) rfl rfl
  exact ⟨hcheck.lt, hcheck.pos⟩

theorem driveLockBytewise_eq {m : Machine} (h : Tracked m) (b : BytewiseFrame) :
    driveLockBytewise b (beforeTurn b.toFrameInput m).1 =
      driveLock (b.undivided m) (beforeTurn (b.undivided m) m).1 := by
  obtain ⟨hlt, hpos⟩ := h.beforeTurn b.toFrameInput
  rw [beforeTurn_undivided]
  by_cases hdue : (beforeTurn b.toFrameInput m).1.isLocking = true ∧
      timerIsExpiredLoaded (beforeTurn b.toFrameInput m).1.locc b.check = true
  · have hskip : b.ticksSkipped m = (beforeTurn b.toFrameInput m).1.locc.waitTicks.toNat := by
      rw [BytewiseFrame.ticksSkipped, hdue.1, hdue.2]
      rfl
    rw [hskip]
    exact driveLockBytewise_of_expired rfl hdue.1 hdue.2 hlt
  · have hskip : b.ticksSkipped m = 0 := by
      rw [BytewiseFrame.ticksSkipped, if_neg]
      rwa [Bool.and_eq_true]
    rw [hskip]
    refine driveLockBytewise_of_not_expired ?_ hdue hpos
    rw [BytewiseFrame.undivided, hskip]
    rfl

theorem bytewise_step_eq {m : Machine} (h : Tracked m) (e : BytewiseEvent) :
    firmware.step m (undivided m e) = bytewiseFirmware.step m e := by
  cases e with
  | tick => rfl
  | frame b =>
    have hloop : loop (b.undivided m) m = loopBytewise b m := by
      rw [loop_eq_endFrame, loopBytewise, ← driveLockBytewise_eq h, endFrame, endFrame,
        beforeTurn_undivided]
      rfl
    simp only [firmware, bytewiseFirmware, undivided, hloop]

/-- `firmware` replays every run with byte-wise checks. -/
theorem bytewise_replay (events : List BytewiseEvent) :
    firmware.run setup (undividedEvents events) = bytewiseFirmware.run setup events ∧
      firmware.outputs setup (undividedEvents events) = bytewiseFirmware.outputs setup events :=
  Mealy.replay (fun _ e h => h.step e) (fun _ e h => bytewise_step_eq h e)
    ⟨_, refines_setup⟩ events

theorem tracked_run (events : List BytewiseEvent) :
    Tracked (bytewiseFirmware.run setup events) := by
  rw [← (bytewise_replay events).1]
  exact ⟨_, refines_run _⟩

theorem bytewise_waitTicks_le (events : List BytewiseEvent) :
    (bytewiseFirmware.run setup events).locc.waitTicks.toNat ≤ 15000 := by
  rw [← (bytewise_replay events).1]
  exact waitTicks_le _

theorem undividedEvents_getElem? (events : List BytewiseEvent) (k : ℕ) :
    (undividedEvents events)[k]? =
      events[k]?.map (undivided (bytewiseFirmware.run setup (events.take k))) :=
  Mealy.rewrites_getElem? setup events k

/-- **Torn checks cost time only**: every run with byte-wise checks is, in its states and in
    its outputs, a run of the firmware with undivided checks on the same frames with other
    ticks.  So, however many ticks fall among the loads and wherever they fall, commands and
    actions are those of whole openings, one after the other. -/
theorem bytewise_refines_undivided (events : List BytewiseEvent) :
    (∃ events', firmware.run setup events' = bytewiseFirmware.run setup events ∧
      firmware.outputs setup events' = bytewiseFirmware.outputs setup events ∧
      events'.map Event.untimed = events.map BytewiseEvent.untimed) ∧
    ∃ N, (bytewiseFirmware.outputs setup events).flatMap marks <+:
      (List.replicate N opening).flatten := by
  obtain ⟨hrun, houtputs⟩ := bytewise_replay events
  refine ⟨⟨undividedEvents events, hrun, houtputs, ?_⟩, ?_⟩
  · apply List.ext_getElem?
    intro k
    rw [List.getElem?_map, List.getElem?_map, undividedEvents_getElem?, Option.map_map]
    congr 1
    funext e
    cases e <;> rfl
  · rw [← houtputs]
    exact trace_prefix (undividedEvents events)

end LoccFirmware.System
