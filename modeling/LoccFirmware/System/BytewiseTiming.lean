import LoccFirmware.System.BytewiseLoop
import LoccFirmware.System.CycleTiming
import Mathlib.Data.Nat.Find

/-!
# The Timing of an Opening with Byte-wise Checks

A torn check ends a wait early, but not by much: no wait of the firmware reaches the third
byte, so only borrows out of the lowest byte can be torn.  If `n` ticks come among the
loads, no more than 255 + `n` are left when the check begins; with a single one these are
256.  A check that is torn without reporting anything makes no difference, so an action is
never late either.
-/

namespace LoccFirmware.System

open LoccFirmware.Automata LoccFirmware.Lock

/-! ## Positions and times -/

/-- The ticks of an event before its check begins, and those from there on. -/
def BytewiseEvent.window : BytewiseEvent → Window
  | .tick => { early := 1, late := 0 }
  | .frame b => { early := b.ticksBeforeCheck, late := b.ticksInCheck + b.ticksDuringStep }

section Positions

variable (events : List BytewiseEvent)

/-- The case of `do_locc_step` run in event `i`. -/
def bytewisePerformedAt (i : ℕ) : Option StepCase :=
  (bytewiseFirmware.outputs setup events)[i]?.bind fun o =>
    o.bind fun o => o.performed.map Performed.stepCase

/-- Event `j` is a frame. -/
def IsBytewiseFrame (j : ℕ) : Prop :=
  ∃ b, events[j]? = some (.frame b)

/-- The tick count when the check of frame `j` begins. -/
def checkBeginsAt (j : ℕ) : ℕ :=
  checkAt (events.map BytewiseEvent.window) j

/-- The tick count when a step in frame `i` sets the timer. -/
def bytewiseWaitSetAt (i : ℕ) : ℕ :=
  setAt (events.map BytewiseEvent.window) i

theorem performedAt_undividedEvents :
    performedAt (undividedEvents events) = bytewisePerformedAt events := by
  funext i
  rw [performedAt, (bytewise_replay events).2, bytewisePerformedAt]

/-! ## One position -/

variable {events} {k : ℕ}

/-- A frame that skips ticks performs an action. -/
theorem performed_of_ticksSkipped {b : BytewiseFrame} {m : Machine} (hm : Tracked m)
    (hskip : b.ticksSkipped m ≠ 0) : (loopBytewise b m).2.performed.isSome = true := by
  have hdue : (beforeTurn b.toFrameInput m).1.isLocking = true ∧
      timerIsExpiredLoaded (beforeTurn b.toFrameInput m).1.locc b.check = true := by
    by_contra hno
    refine hskip ?_
    rw [BytewiseFrame.ticksSkipped, if_neg]
    rwa [Bool.and_eq_true]
  obtain ⟨c, hc⟩ := exists_stepCase (hm.beforeTurn b.toFrameInput).1
  have hperformed : (loopBytewise b m).2.performed =
      (driveLockBytewise b (beforeTurn b.toFrameInput m).1).2.1 := rfl
  rw [hperformed, driveLockBytewise, if_pos hdue.1,
    doNextLoccStepBytewise_of_expired _ _ hdue.2 hc.symm]
  rfl

/-- It skips no more than its check can overlook. -/
theorem ticksSkipped_le {b : BytewiseFrame} {m : Machine} (hm : m.locc.waitTicks.toNat ≤ 15000) :
    b.ticksSkipped m ≤ b.check.overlooked := by
  rw [BytewiseFrame.ticksSkipped]
  split
  · rename_i hdue
    rw [Bool.and_eq_true] at hdue
    have hwait : (beforeTurn b.toFrameInput m).1.locc.waitTicks.toNat ≤ 15000 :=
      Nat.le_trans (beforeTurn_waitTicks_le m b.toFrameInput) hm
    exact left_le_of_expired hdue.2 hwait
  · exact Nat.zero_le _

section Windows

variable (events k)

theorem map_window_undividedEvents_getElem? :
    ((undividedEvents events).map Event.window)[k]? =
      events[k]?.map fun e =>
        (undivided (bytewiseFirmware.run setup (events.take k)) e).window := by
  rw [List.getElem?_map, undividedEvents_getElem?, Option.map_map]
  rfl

/-- The clock of the replay runs at least as fast, -/
theorem ticksAt_le_undivided :
    ticksAt (events.map BytewiseEvent.window) k ≤
      ticksAt ((undividedEvents events).map Event.window) k := by
  rw [ticksAt, ticksAt, map_window_undividedEvents_getElem?, List.getElem?_map]
  cases events[k]? with
  | none => exact Nat.le_refl _
  | some e =>
    cases e with
    | tick => exact Nat.le_refl _
    | frame b =>
      simp only [Option.map_some, Option.getD_some, undivided, BytewiseFrame.undivided,
        BytewiseEvent.window, Event.window]
      omega

theorem earlyAt_le_undivided :
    earlyAt (events.map BytewiseEvent.window) k ≤
      earlyAt ((undividedEvents events).map Event.window) k := by
  rw [earlyAt, earlyAt, map_window_undividedEvents_getElem?, List.getElem?_map]
  cases events[k]? with
  | none => exact Nat.le_refl _
  | some e =>
    cases e with
    | tick => exact Nat.le_refl _
    | frame b => exact Nat.le_add_right _ _

/-- and is ahead by what is skipped only. -/
theorem earlyAt_undivided_le {b : BytewiseFrame} (hb : events[k]? = some (.frame b)) :
    earlyAt ((undividedEvents events).map Event.window) k ≤
      earlyAt (events.map BytewiseEvent.window) k + b.check.overlooked := by
  rw [earlyAt, earlyAt, map_window_undividedEvents_getElem?, List.getElem?_map, hb]
  exact Nat.add_le_add_left (ticksSkipped_le (bytewise_waitTicks_le (events.take k))) _

theorem ticksAt_undivided_le (hquiet : bytewisePerformedAt events k = none) :
    ticksAt ((undividedEvents events).map Event.window) k ≤
      ticksAt (events.map BytewiseEvent.window) k := by
  rw [ticksAt, ticksAt, map_window_undividedEvents_getElem?, List.getElem?_map]
  rw [bytewisePerformedAt, Mealy.outputs_getElem?] at hquiet
  cases he : events[k]? with
  | none => exact Nat.le_refl _
  | some e =>
    cases e with
    | tick => exact Nat.le_refl _
    | frame b =>
      -- nothing was performed, so nothing was skipped
      have hskip : b.ticksSkipped (bytewiseFirmware.run setup (events.take k)) = 0 := by
        by_contra hne
        have hsome := performed_of_ticksSkipped (tracked_run (events.take k)) hne
        rw [he] at hquiet
        have hnone := Option.map_eq_none_iff.mp hquiet
        rw [hnone] at hsome
        exact Bool.noConfusion hsome
      simp only [Option.map_some, Option.getD_some, undivided, BytewiseFrame.undivided,
        BytewiseEvent.window, Event.window, hskip]
      omega

theorem isFrame_undividedEvents_iff :
    IsFrame (undividedEvents events) k ↔ IsBytewiseFrame events k := by
  rw [IsFrame, IsBytewiseFrame, undividedEvents_getElem?]
  cases events[k]? with
  | none => simp
  | some e => cases e <;> simp [undivided]

end Windows

end Positions

/-! ## The theorem -/

/-- **Waits with torn checks**: however many ticks fall among the loads and wherever they
    fall, the next action after any other is the next one of the cycle, and when the check
    that leads to it begins, nothing is missing from its wait if no tick comes among the
    loads, and no more than 255 + `n` ticks if `n` do; and within an opening it is not
    later than the first frame whose check begins after the whole of the wait. -/
theorem bytewise_timing (events : List BytewiseEvent) :
    (∀ i j c, bytewisePerformedAt events i = some c → Next (bytewisePerformedAt events) i j →
      bytewisePerformedAt events j = some (nextCase c) ∧
      ∃ b, events[j]? = some (.frame b) ∧
        bytewiseWaitSetAt events i + c.wait.toNat ≤
          checkBeginsAt events j + b.check.overlooked) ∧
    (∀ i k c, bytewisePerformedAt events i = some c → c ≠ .powerupLocc → i < k →
      IsBytewiseFrame events k →
      bytewiseWaitSetAt events i + c.wait.toNat ≤ checkBeginsAt events k →
      ∃ j ≤ k, Next (bytewisePerformedAt events) i j) := by
  rw [← performedAt_undividedEvents]
  refine ⟨fun i j c hc hnext => ⟨performedAt_next hc hnext, ?_⟩, fun i k c hc hU hik hk hw => ?_⟩
  · -- the replay waits in full, and is not ahead before the action
    obtain ⟨⟨⟨hij, hframe, hwaited⟩, -⟩, -⟩ := (next_iff_isLeast hc j).mp hnext
    obtain ⟨b, hb⟩ := (isFrame_undividedEvents_iff events j).mp hframe
    refine ⟨b, hb, waited_of_ticksAt_le hij (fun k hik hkj => ?_)
      (earlyAt_undivided_le events j hb) hwaited⟩
    apply ticksAt_undivided_le
    rw [← performedAt_undividedEvents]
    exact hnext.2.2 k hik hkj
  · -- frame `k` is late enough for the replay as well, so there is a first such frame
    have hmem : k ∈ framesAfterWait (undividedEvents events) i c.wait.toNat := by
      refine ⟨hik, (isFrame_undividedEvents_iff events k).mpr hk, ?_⟩
      have hlast : earlyAt (events.map BytewiseEvent.window) k ≤
          earlyAt ((undividedEvents events).map Event.window) k + 0 :=
        earlyAt_le_undivided events k
      exact waited_of_ticksAt_le hik (fun p _ _ => ticksAt_le_undivided events p) hlast hw
    have hdue : ∃ j, j ∈ framesAfterWait (undividedEvents events) i c.wait.toNat := ⟨k, hmem⟩
    classical
    refine ⟨Nat.find hdue, Nat.find_min' hdue hmem, (next_iff_isLeast hc _).mpr ⟨?_, ?_⟩⟩
    · exact ⟨Nat.find_spec hdue, fun h => absurd h hU⟩
    · rintro p ⟨hp, -⟩
      exact Nat.find_min' hdue hp

end LoccFirmware.System
