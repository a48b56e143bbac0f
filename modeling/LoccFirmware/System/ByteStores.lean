import LoccFirmware.System.BytewiseLoop

/-!
# Setting the Timer on an 8-bit Processor

`set_wait_time` is not atomic either: it stores four bytes, least significant first, and
the timer interrupt can come between them and count down what stands there at that
moment.  Other than a torn check this does no harm.  The timer is only set when a check
has found it expired, so not more than its lowest byte can be in use; and while the bytes
are stored from below, an interrupt never has to borrow from a byte that is yet to come.

So a frame that sets the timer byte by byte leaves everything as a frame does that sets it
at once and is followed by some of the same ticks.
-/

namespace LoccFirmware.System

open LoccFirmware.Automata LoccFirmware.Coding LoccFirmware.Lock

/-! ## Byte-wise stores -/

/-- What happens to `wait_ticks` while it is set. -/
inductive StoreAccess where
  | store
  | tick
  deriving DecidableEq, Repr

/-- `set_wait_time` between two accesses: the globals, and the number of bytes stored. -/
structure Storing where
  locc : Locc
  stored : ℕ

/-- A 32-bit variable with one byte replaced. -/
def storeByte (w : UInt32) (i : ℕ) (byte : UInt8) : UInt32 :=
  wordOf (((List.range' 0 4).map (byteAt w)).set i byte)

/-- A store puts the next byte of `millis` in its place. -/
def stores (millis : UInt32) : Mealy Storing StoreAccess Unit where
  step s
    | .store =>
      ({ locc := { s.locc with
          waitTicks := storeByte s.locc.waitTicks s.stored (byteAt millis s.stored) }
         stored := s.stored + 1 }, ())
    | .tick => ({ s with locc := timerOverflow s.locc }, ())

/-- An order of the four stores and any ticks among them. -/
structure StoreOrder where
  order : List StoreAccess
  stores : order.count .store = 4

/-- The ticks among the stores. -/
def StoreOrder.ticks (p : StoreOrder) : ℕ :=
  p.order.count .tick

/-- `set_wait_time`, byte by byte. -/
def setWaitTimeBytewise (millis : UInt32) (p : StoreOrder) (l : Locc) : Locc :=
  ((stores millis).run { locc := l, stored := 0 } p.order).locc

/-! ## What is stored -/

theorem storeByte_toNat (w : UInt32) {i : ℕ} (hi : i < 4) (byte : UInt8) :
    (storeByte w i byte).toNat = setDigit 256 w.toNat i byte.toNat := by
  rw [storeByte, wordOf_toNat _ (by simp), List.map_set, map_byteAt_toNat]
  exact ofDigits_set byte.toNat w.toNat_lt hi

/-- The bytes stored so far, with the ticks so far taken off; nothing but the timer is
touched. -/
structure PartlyStored (millis : UInt32) (l : Locc) (ticks : ℕ) (s : Storing) : Prop where
  written : Written 256 millis.toNat s.stored ticks s.locc.waitTicks.toNat
  step : s.locc.currentLoccStep = l.currentLoccStep
  port : s.locc.port = l.port

theorem PartlyStored.run {millis : UInt32} {l : Locc} {ticks : ℕ} {s : Storing}
    (h : PartlyStored millis l ticks s) (as : List StoreAccess)
    (hlen : s.stored + as.count .store ≤ 4) :
    PartlyStored millis l (ticks + as.count .tick) ((stores millis).run s as) ∧
      ((stores millis).run s as).stored = s.stored + as.count .store := by
  induction as generalizing s ticks with
  | nil => exact ⟨h, rfl⟩
  | cons a as ih =>
    cases a with
    | store =>
      rw [List.count_cons_self] at hlen
      have hnext : PartlyStored millis l ticks ((stores millis).step s .store).1 := by
        refine ⟨?_, h.step, h.port⟩
        have hwrite := h.written.write (by decide)
        rw [← byteAt_toNat, ← storeByte_toNat _ (by omega)] at hwrite
        exact hwrite
      have hstored : ((stores millis).step s .store).1.stored = s.stored + 1 := rfl
      obtain ⟨hdone, hcount⟩ := ih hnext (by omega)
      rw [Mealy.run_cons, List.count_cons_self, List.count_cons_of_ne (by decide)]
      exact ⟨hdone, by omega⟩
    | tick =>
      rw [List.count_cons_of_ne (by decide)] at hlen
      have hnext : PartlyStored millis l (ticks + 1) ((stores millis).step s .tick).1 := by
        refine ⟨?_, ?_, ?_⟩
        · have hcount := h.written.countdown
          rw [← timerOverflow_waitTicks] at hcount
          exact hcount
        · exact (timerOverflow_currentLoccStep s.locc).trans h.step
        · exact (timerOverflow_port s.locc).trans h.port
      obtain ⟨hdone, hcount⟩ := ih hnext hlen
      rw [Mealy.run_cons, List.count_cons_self, List.count_cons_of_ne (by decide)]
      rw [Nat.add_right_comm] at hdone
      exact ⟨hdone, hcount⟩

theorem locc_eq {l l' : Locc} (hwait : l.waitTicks.toNat = l'.waitTicks.toNat)
    (hstep : l.currentLoccStep = l'.currentLoccStep) (hport : l.port = l'.port) : l = l' := by
  obtain ⟨w, k, p⟩ := l
  obtain ⟨w', k', p'⟩ := l'
  rw [UInt32.toNat_inj] at hwait
  subst hwait hstep hport
  rfl

/-- Setting the timer byte by byte leaves the globals as setting it at once and then some of
    the same ticks do. -/
theorem setWaitTimeBytewise_eq (millis : UInt32) (p : StoreOrder) {l : Locc}
    (hsmall : l.waitTicks.toNat < 256) :
    ∃ d ≤ p.ticks, setWaitTimeBytewise millis p l = ticks d (setWaitTime millis l) := by
  have hstart : PartlyStored millis l 0 { locc := l, stored := 0 } :=
    ⟨Written.zero hsmall, rfl, rfl⟩
  obtain ⟨hdone, hcount⟩ := hstart.run p.order (by simp [p.stores])
  have hwritten : Written 256 millis.toNat 4 p.ticks
      (setWaitTimeBytewise millis p l).waitTicks.toNat := by
    have hpart := hdone.written
    rwa [hcount, p.stores, Nat.zero_add, Nat.zero_add] at hpart
  obtain ⟨hle, hge⟩ := hwritten.bounds millis.toNat_lt (by decide)
  refine ⟨millis.toNat - (setWaitTimeBytewise millis p l).waitTicks.toNat, by omega,
    locc_eq ?_ ?_ ?_⟩
  · simp only [ticks_waitTicks, setWaitTime]
    omega
  · rw [ticks_currentLoccStep]
    exact hdone.step
  · rw [ticks_port]
    exact hdone.port

/-! ## One frame -/

/-- A frame whose ticks while it sets the timer are placed among the stores. -/
structure StoringFrame extends BytewiseFrame where
  store : StoreOrder

/-- `do_locc_step`, with the argument of `set_wait_time` stored byte by byte over what the
timer has come to by then. -/
def doLoccStepStoring (during : ℕ) (behind : ℕ → BitVec 16) (p : StoreOrder) (l : Locc) :
    Locc × Option StepCase :=
  match doLoccStep during behind l with
  | (l', some c) =>
    ({ l' with waitTicks := (setWaitTimeBytewise c.wait p (ticks during l)).waitTicks }, some c)
  | (l', none) => (ticks p.ticks l', none)

/-- `do_next_locc_step`, with both the check and `set_wait_time` done byte by byte. -/
def doNextLoccStepStoring (s : StoringFrame) (l : Locc) : Stepped :=
  let checked := (accesses.run { locc := l, bytes := [] } s.check.order).locc
  let step :=
    if timerIsExpiredLoaded l s.check then
      doLoccStepStoring s.ticksDuringStep s.behind s.store checked
    else (ticks s.store.ticks (ticks s.ticksDuringStep checked), none)
  let performed := step.2.map fun c => { stepCase := c, entry := l.port : Performed }
  if step.1.currentLoccStep > 0 then
    { locc := step.1, performed := performed, sent := [], again := true }
  else
    { locc := step.1, performed := performed, sent := ['.'.toUInt8], again := false }

/-- The lock's turn. -/
def driveLockStoring (s : StoringFrame) (m : Machine) :
    Machine × Option Performed × List UInt8 :=
  if m.isLocking then
    let stepped := doNextLoccStepStoring s m.locc
    ({ m with isLocking := stepped.again, locc := stepped.locc }, stepped.performed, stepped.sent)
  else
    ({ m with locc := ticks s.store.ticks (ticks (s.ticksInCheck + s.ticksDuringStep) m.locc) },
      none, [])

/-- `loop`, with every access to `wait_ticks` done byte by byte. -/
def loopStoring (s : StoringFrame) (m : Machine) : Machine × FrameOutput :=
  endFrame s.toFrameInput m (driveLockStoring s (beforeTurn s.toFrameInput m).1)

/-- A frame, or a tick between two frames. -/
inductive StoringEvent where
  | tick
  | frame (s : StoringFrame)

/-- The firmware with every access to `wait_ticks` done byte by byte. -/
def storingFirmware : Mealy Machine StoringEvent (Option FrameOutput) where
  step m
    | .tick => ({ m with locc := timerOverflow m.locc }, none)
    | .frame s => ((loopStoring s m).1, some (loopStoring s m).2)

/-! ## The same frame with the timer set at once -/

/-- A case that sets the timer byte by byte leaves the globals as one that sets it at once
    and then some of the same ticks do. -/
theorem doLoccStepStoring_eq (during : ℕ) (behind : ℕ → BitVec 16) (p : StoreOrder) {l : Locc}
    {c : StepCase} (hc : l.currentLoccStep = c.number) (hsmall : l.waitTicks.toNat < 256) :
    ∃ d ≤ p.ticks, doLoccStepStoring during behind p l =
      (ticks d { waitTicks := c.wait, currentLoccStep := (c.number + 1) % 5,
                 port := c.drive behind l.port }, some c) := by
  have hless : (ticks during l).waitTicks.toNat < 256 := by
    rw [ticks_waitTicks]
    omega
  obtain ⟨d, hd, hset⟩ := setWaitTimeBytewise_eq c.wait p hless
  refine ⟨d, hd, ?_⟩
  rw [doLoccStepStoring, doLoccStep_eq during behind hc]
  simp only [hset]
  congr 1
  apply locc_eq
  · simp only [ticks_waitTicks, setWaitTime]
  · simp only [ticks_currentLoccStep]
  · simp only [ticks_port]

/-- `do_next_locc_step` with and without byte-wise stores. -/
theorem doNextLoccStepStoring_eq (s : StoringFrame) {l : Locc} (hlt : l.currentLoccStep < 5)
    (hwait : l.waitTicks.toNat ≤ 15000) :
    ∃ d ≤ s.store.ticks, doNextLoccStepStoring s l =
      { doNextLoccStepBytewise s.check s.ticksDuringStep s.behind l with
        locc := ticks d (doNextLoccStepBytewise s.check s.ticksDuringStep s.behind l).locc } := by
  by_cases hexp : timerIsExpiredLoaded l s.check = true
  · obtain ⟨c, hc⟩ := exists_stepCase hlt
    -- what is left in the timer fits into its lowest byte
    have hsmall : (ticks (s.check.order.count .tick) l).waitTicks.toNat < 256 := by
      have hleft := left_le_of_expired hexp hwait
      rw [LoadOrder.overlooked, LoadOrder.ticks] at hleft
      rw [ticks_waitTicks]
      split at hleft <;> omega
    have hstep : (ticks (s.check.order.count .tick) l).currentLoccStep = c.number := by
      rw [ticks_currentLoccStep, hc]
    obtain ⟨d, hd, hcase⟩ := doLoccStepStoring_eq s.ticksDuringStep s.behind s.store hstep hsmall
    refine ⟨d, hd, ?_⟩
    rw [doNextLoccStepBytewise_of_expired _ _ hexp hc.symm]
    simp only [doNextLoccStepStoring, if_pos hexp, accesses_run_locc, hcase,
      ticks_currentLoccStep, ticks_port]
    cases c <;> rfl
  · refine ⟨s.store.ticks, Nat.le_refl _, ?_⟩
    simp only [doNextLoccStepStoring, doNextLoccStepBytewise, if_neg hexp, ticks_currentLoccStep]
    split <;> rfl

/-- The lock's turn with and without byte-wise stores. -/
theorem driveLockStoring_eq (s : StoringFrame) {m : Machine} (hlt : m.locc.currentLoccStep < 5)
    (hwait : m.locc.waitTicks.toNat ≤ 15000) :
    ∃ d ≤ s.store.ticks, driveLockStoring s m =
      ({ (driveLockBytewise s.toBytewiseFrame m).1 with
          locc := ticks d (driveLockBytewise s.toBytewiseFrame m).1.locc },
        (driveLockBytewise s.toBytewiseFrame m).2) := by
  by_cases hlock : m.isLocking = true
  · obtain ⟨d, hd, hstep⟩ := doNextLoccStepStoring_eq s hlt hwait
    refine ⟨d, hd, ?_⟩
    rw [driveLockStoring, if_pos hlock, hstep, driveLockBytewise, if_pos hlock]
  · refine ⟨s.store.ticks, Nat.le_refl _, ?_⟩
    rw [driveLockStoring, if_neg hlock, driveLockBytewise, if_neg hlock]

/-! ## Every run -/

/-- The machine some ticks later. -/
def Machine.later (m : Machine) (d : ℕ) : Machine :=
  { m with locc := ticks d m.locc }

/-- The rest of a frame does not look at the timer. -/
theorem endFrame_later (f : FrameInput) (m n : Machine) (performed : Option Performed)
    (sent : List UInt8) (d : ℕ) :
    endFrame f m (n.later d, performed, sent) =
      ((endFrame f m (n, performed, sent)).1.later d, (endFrame f m (n, performed, sent)).2) := by
  have hport : ticks d { n.locc with
      port := { n.locc.port with portd := n.locc.port.portd &&& ~~~0x10 ||| 0x10 } } =
      { ticks d n.locc with
        port := { n.locc.port with portd := n.locc.port.portd &&& ~~~0x10 ||| 0x10 } } := by
    apply locc_eq <;> simp [ticks_waitTicks]
  simp only [endFrame, Machine.later, shiftregOut, ticks_port, hport]

/-- A list of events with the timer set at once stands for an event with byte-wise stores:
the same frame, and some of the ticks among the stores after it. -/
def StandsFor : StoringEvent → List BytewiseEvent → Prop
  | .tick, es => es = [.tick]
  | .frame s, es =>
    ∃ d ≤ s.store.ticks, es = .frame s.toBytewiseFrame :: List.replicate d .tick

theorem bytewise_run_replicate_tick (m : Machine) (d : ℕ) :
    bytewiseFirmware.run m (List.replicate d .tick) = m.later d ∧
      (bytewiseFirmware.outputs m (List.replicate d .tick)).filterMap id = [] := by
  induction d generalizing m with
  | zero => exact ⟨rfl, rfl⟩
  | succ d ih =>
    rw [List.replicate_succ, Mealy.run_cons, Mealy.outputs_cons]
    obtain ⟨hrun, houtputs⟩ := ih (bytewiseFirmware.step m .tick).1
    exact ⟨hrun, houtputs⟩

/-- One frame: the events that stand for it do what it does. -/
theorem exists_standsFor {m : Machine} (hm : Tracked m) (hwait : m.locc.waitTicks.toNat ≤ 15000)
    (e : StoringEvent) :
    ∃ es, StandsFor e es ∧ bytewiseFirmware.run m es = (storingFirmware.step m e).1 ∧
      (bytewiseFirmware.outputs m es).filterMap id = (storingFirmware.step m e).2.toList := by
  cases e with
  | tick => exact ⟨[.tick], rfl, rfl, rfl⟩
  | frame s =>
    have hle := beforeTurn_waitTicks_le m s.toFrameInput
    obtain ⟨d, hd, hturn⟩ := driveLockStoring_eq s (hm.beforeTurn s.toFrameInput).1 (by omega)
    -- the ticks that are left come after the rest of the frame as well
    have hloop : loopStoring s m = ((loopBytewise s.toBytewiseFrame m).1.later d,
        (loopBytewise s.toBytewiseFrame m).2) := by
      rw [loopStoring, hturn]
      exact endFrame_later s.toFrameInput m _ _ _ d
    obtain ⟨hrun, houtputs⟩ :=
      bytewise_run_replicate_tick (loopBytewise s.toBytewiseFrame m).1 d
    refine ⟨.frame s.toBytewiseFrame :: List.replicate d .tick, ⟨d, hd, rfl⟩, ?_, ?_⟩
    · rw [Mealy.run_cons]
      exact hrun.trans (congrArg Prod.fst hloop).symm
    · rw [Mealy.outputs_cons, List.filterMap_cons]
      simp only [bytewiseFirmware, storingFirmware, hloop, id, Option.toList_some]
      exact congrArg _ houtputs

theorem flatMap_marks (os : List (Option FrameOutput)) :
    os.flatMap marks = (os.filterMap id).flatMap fun o => marks (some o) := by
  induction os with
  | nil => rfl
  | cons o os ih =>
    cases o with
    | none => exact ih
    | some o => exact congrArg _ ih

/-- **Setting the timer byte by byte costs nothing**: every run in which `wait_ticks` is both
    checked and set byte by byte is a run in which it is set at once, where the ticks that
    came among the stores come after the frame, or some of them not at all.  So a wait
    loses nothing but ticks that have passed, and commands and actions are still those of
    whole openings, one after the other. -/
theorem storing_refines_bytewise (events : List StoringEvent) :
    (∃ blocks, List.Forall₂ StandsFor events blocks ∧
      bytewiseFirmware.run setup blocks.flatten = storingFirmware.run setup events ∧
      (bytewiseFirmware.outputs setup blocks.flatten).filterMap id =
        (storingFirmware.outputs setup events).filterMap id) ∧
    ∃ N, (storingFirmware.outputs setup events).flatMap marks <+:
      (List.replicate N opening).flatten := by
  obtain ⟨blocks, hblocks, hrun, houtputs⟩ := Mealy.replay_blocks
    (I := fun m => ∃ es, bytewiseFirmware.run setup es = m) (B := StandsFor)
    (M := storingFirmware) (N := bytewiseFirmware) (s := setup)
    (by
      rintro _ e ⟨es, rfl⟩
      exact ⟨es ++ [e], Mealy.run_concat _ _ _ _⟩)
    (by
      rintro _ e ⟨es, rfl⟩
      exact exists_standsFor (tracked_run es) (bytewise_waitTicks_le es) e)
    ⟨[], rfl⟩ events
  refine ⟨⟨blocks, hblocks, hrun, houtputs⟩, ?_⟩
  rw [flatMap_marks, ← houtputs, ← flatMap_marks, ← (bytewise_replay blocks.flatten).2]
  exact trace_prefix (undividedEvents blocks.flatten)

end LoccFirmware.System
