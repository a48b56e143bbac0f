import LoccFirmware.System.CycleOrder
import LoccFirmware.Coding.Digits

/-!
# The Timer Check on an 8-bit Processor

`wait_ticks` has 32 bits and the processor moves 8 at a time, so the read in
`timer_is_expired` is four loads, least significant byte first, with no atomic block
around them.  The timer interrupt can come between two of them.  Each load sees the
variable as it is at that moment, and the interrupt is not divided.

Most such reads do no harm: the borrow of the decrement has to cross exactly the bytes
already loaded.  Then zeros are loaded from below the borrow before it and from above
it after it, and the timer is reported as expired with a wait of `256 ^ k` ticks left.
-/

namespace LoccFirmware.System

open LoccFirmware.Automata LoccFirmware.Coding LoccFirmware.Cylinder LoccFirmware.Lock

/-! ## Byte-wise access -/

/-- What happens to `wait_ticks` during the check. -/
inductive Access where
  | load
  | tick
  deriving DecidableEq, Repr

/-- `timer_is_expired` between two accesses: the globals, and the bytes it has loaded,
least significant first. -/
structure Loading where
  locc : Locc
  bytes : List UInt8

/-- A byte of a 32-bit variable, counted from the least significant. -/
def byteAt (w : UInt32) (i : ℕ) : UInt8 :=
  UInt8.ofNat (digit 256 w.toNat i)

/-- The 32-bit value of bytes in registers, least significant first. -/
def wordOf (bytes : List UInt8) : UInt32 :=
  UInt32.ofNat (Nat.ofDigits 256 (bytes.map UInt8.toNat))

/-- A load takes the next byte of `wait_ticks` as it stands; what it shows is the whole
value that `wait_ticks` has at that moment. -/
def accesses : Mealy Loading Access (Option UInt32) where
  step s
    | .load =>
      ({ s with bytes := s.bytes ++ [byteAt s.locc.waitTicks s.bytes.length] },
        some s.locc.waitTicks)
    | .tick => ({ s with locc := timerOverflow s.locc }, none)

/-- An order in which the four loads and at most one tick may come. -/
@[ext] structure Interleaving where
  order : List Access
  loads : order.count .load = 4
  ticks : order.count .tick ≤ 1

/-- `timer_is_expired` on the loaded value. -/
def timerIsExpiredBytewise (l : Locc) (p : Interleaving) : Bool :=
  let s := accesses.run { locc := l, bytes := [] } p.order
  timerIsExpired { s.locc with waitTicks := wordOf s.bytes }

/-- The values that `wait_ticks` has at the loads. -/
def valuesDuring (l : Locc) (p : Interleaving) : List UInt32 :=
  (accesses.outputs { locc := l, bytes := [] } p.order).filterMap id

/-- The timer is reported as expired only if it was at zero at some moment of the check. -/
def SoundCheck (l : Locc) (p : Interleaving) : Prop :=
  timerIsExpiredBytewise l p = true → 0 ∈ valuesDuring l p

instance (l : Locc) (p : Interleaving) : Decidable (SoundCheck l p) :=
  inferInstanceAs (Decidable (_ → _))

/-! ## Interleavings -/

namespace Interleaving

/-- No tick. -/
def undisturbed : Interleaving where
  order := List.replicate 4 .load
  loads := by decide
  ticks := by decide

/-- A tick after the first `k` loads. -/
def tickAfter (k : Fin 5) : Interleaving where
  order := List.replicate k.val .load ++ .tick :: List.replicate (4 - k.val) .load
  loads := by
    revert k
    decide
  ticks := by
    revert k
    decide

theorem eq_replicate_load {as : List Access} (h : .tick ∉ as) :
    as = List.replicate (as.count .load) .load := by
  have hload : ∀ a ∈ as, a = .load := by
    intro a ha
    cases a with
    | load => rfl
    | tick => exact absurd ha h
  rw [List.eq_replicate_of_mem hload, List.count_replicate_self]

/-- There are no others. -/
theorem eq_undisturbed_or_tickAfter (p : Interleaving) :
    p = undisturbed ∨ ∃ k, p = tickAfter k := by
  by_cases hmem : Access.tick ∈ p.order
  · obtain ⟨before, after, horder, hbefore⟩ := List.eq_append_cons_of_mem hmem
    have hloads := p.loads
    have hticks := p.ticks
    rw [horder, List.count_append, List.count_cons] at hloads hticks
    simp only [beq_self_eq_true, if_true] at hticks
    -- the one tick is this one
    have hafter : Access.tick ∉ after := List.count_eq_zero.mp (by omega)
    have hcount : before.count .load + after.count .load = 4 := by simpa using hloads
    have hrest : 4 - before.count .load = after.count .load := by omega
    refine Or.inr ⟨⟨before.count .load, by omega⟩, Interleaving.ext ?_⟩
    simp only [tickAfter, hrest]
    rw [horder, ← eq_replicate_load hbefore, ← eq_replicate_load hafter]
  · refine Or.inl (Interleaving.ext ?_)
    rw [eq_replicate_load hmem, p.loads]
    rfl

theorem tickAfter_injective : Function.Injective tickAfter := by
  have htable : ∀ k k' : Fin 5, (tickAfter k).order = (tickAfter k').order → k = k' := by decide
  intro k k' h
  exact htable k k' (congrArg order h)

theorem undisturbed_ne_tickAfter (k : Fin 5) : undisturbed ≠ tickAfter k := by
  have htable : ∀ k : Fin 5, undisturbed.order ≠ (tickAfter k).order := by decide
  intro h
  exact htable k (congrArg order h)

end Interleaving

/-! ## What is loaded -/

theorem byteAt_toNat (w : UInt32) (i : ℕ) : (byteAt w i).toNat = digit 256 w.toNat i := by
  rw [byteAt, UInt8.toNat_ofNat']
  exact Nat.mod_eq_of_lt (Nat.mod_lt _ (by decide))

theorem map_byteAt_toNat (w : UInt32) (is : List ℕ) :
    (is.map (byteAt w)).map UInt8.toNat = is.map (digit 256 w.toNat) := by
  rw [List.map_map]
  exact List.map_congr_left fun i _ => byteAt_toNat w i

/-- Loads in a row take consecutive bytes of one value. -/
theorem run_loads (l : Locc) (bytes : List UInt8) (n : ℕ) :
    accesses.run { locc := l, bytes := bytes } (List.replicate n .load) =
        { locc := l, bytes := bytes ++ (List.range' bytes.length n).map (byteAt l.waitTicks) } ∧
      accesses.outputs { locc := l, bytes := bytes } (List.replicate n .load) =
        List.replicate n (some l.waitTicks) := by
  induction n generalizing bytes with
  | zero => exact ⟨by simp, rfl⟩
  | succ n ih =>
    obtain ⟨hrun, houtputs⟩ := ih (bytes ++ [byteAt l.waitTicks bytes.length])
    rw [List.replicate_succ, Mealy.run_cons, Mealy.outputs_cons, List.replicate_succ]
    refine ⟨hrun.trans ?_, congrArg _ houtputs⟩
    simp [List.range'_succ]

/-- The tick splits the bytes into those of the value before it and those of the value
    after it. -/
theorem run_tickAfter (l : Locc) (k : Fin 5) :
    accesses.run { locc := l, bytes := [] } (Interleaving.tickAfter k).order =
        { locc := timerOverflow l
          bytes := (List.range' 0 k.val).map (byteAt l.waitTicks) ++
            (List.range' k.val (4 - k.val)).map (byteAt (timerOverflow l).waitTicks) } ∧
      accesses.outputs { locc := l, bytes := [] } (Interleaving.tickAfter k).order =
        List.replicate k.val (some l.waitTicks) ++
          none :: List.replicate (4 - k.val) (some (timerOverflow l).waitTicks) := by
  obtain ⟨hrun, houtputs⟩ := run_loads l [] k.val
  obtain ⟨hrun', houtputs'⟩ := run_loads (timerOverflow l)
    ((List.range' 0 k.val).map (byteAt l.waitTicks)) (4 - k.val)
  rw [List.length_map, List.length_range'] at hrun'
  rw [Interleaving.tickAfter, Mealy.run_append, Mealy.outputs_append, hrun, houtputs]
  exact ⟨hrun', congrArg _ (congrArg _ houtputs')⟩

theorem mem_valuesDuring_iff (l : Locc) (p : Interleaving) (w : UInt32) :
    w ∈ valuesDuring l p ↔ some w ∈ accesses.outputs { locc := l, bytes := [] } p.order := by
  simp [valuesDuring]

/-! ## When the check is sound -/

theorem wordOf_toNat (bytes : List UInt8) (hlen : bytes.length = 4) :
    (wordOf bytes).toNat = Nat.ofDigits 256 (bytes.map UInt8.toNat) := by
  rw [wordOf, UInt32.toNat_ofNat']
  apply Nat.mod_eq_of_lt
  have hlt := Nat.ofDigits_lt_base_pow_length (b := 256) (l := bytes.map UInt8.toNat) (by decide)
    (by
      intro x hx
      obtain ⟨y, -, rfl⟩ := List.mem_map.mp hx
      exact y.toNat_lt)
  rwa [List.length_map, hlen] at hlt

/-- Without a tick the loaded value is that of `wait_ticks`. -/
theorem soundCheck_undisturbed (l : Locc) : SoundCheck l .undisturbed := by
  intro hexp
  obtain ⟨hrun, houtputs⟩ := run_loads l [] 4
  have hword : (wordOf ((List.range' 0 4).map (byteAt l.waitTicks))).toNat =
      l.waitTicks.toNat := by
    rw [wordOf_toNat _ (by simp), map_byteAt_toNat, ofDigits_digits, pow_zero, Nat.div_one]
    exact Nat.mod_eq_of_lt l.waitTicks.toNat_lt
  have hzero : l.waitTicks.toNat = 0 := by
    rw [timerIsExpiredBytewise, Interleaving.undisturbed, hrun, timerIsExpired_iff] at hexp
    exact hword.symm.trans hexp
  rw [mem_valuesDuring_iff, Interleaving.undisturbed, houtputs, List.mem_replicate,
    Option.some.injEq, ← UInt32.toNat_inj, hzero]
  exact ⟨by decide, rfl⟩

/-- With a tick after `k` loads, the timer is reported as expired when `wait_ticks` was zero
    and also when it was `256 ^ k`. -/
theorem expired_tickAfter_iff (l : Locc) (k : Fin 5) :
    timerIsExpiredBytewise l (.tickAfter k) = true ↔
      l.waitTicks.toNat = 0 ∨ l.waitTicks.toNat = 256 ^ k.val := by
  have hlt : l.waitTicks.toNat < 256 ^ (k.val + (4 - k.val)) := by
    rw [Nat.add_sub_cancel' (Nat.le_of_lt_succ k.isLt)]
    exact l.waitTicks.toNat_lt
  rw [timerIsExpiredBytewise, (run_tickAfter l k).1, timerIsExpired_iff, wordOf_toNat,
    List.map_append, map_byteAt_toNat, map_byteAt_toNat, timerOverflow_waitTicks,
    ofDigits_countdown_eq_zero_iff (by decide) hlt]
  simp only [List.length_append, List.length_map, List.length_range']
  omega

/-- The values at the loads are the one before the tick and the one after it. -/
theorem zero_mem_valuesDuring_tickAfter_iff (l : Locc) (k : Fin 5) :
    0 ∈ valuesDuring l (.tickAfter k) ↔
      (k.val ≠ 0 ∧ l.waitTicks.toNat = 0) ∨ (4 - k.val ≠ 0 ∧ l.waitTicks.toNat ≤ 1) := by
  have hzero (w : UInt32) : 0 = w ↔ w.toNat = 0 := by
    rw [← UInt32.toNat_inj]
    exact eq_comm
  rw [mem_valuesDuring_iff, (run_tickAfter l k).2, List.mem_append, List.mem_cons,
    List.mem_replicate, List.mem_replicate, Option.some.injEq, Option.some.injEq, hzero, hzero,
    timerOverflow_waitTicks, Nat.sub_eq_zero_iff_le]
  simp

/-- With a tick between two loads the check is sound unless the borrow crosses just the
    bytes loaded before it. -/
theorem soundCheck_tickAfter_iff (l : Locc) (k : Fin 5) :
    SoundCheck l (.tickAfter k) ↔
      ¬ (1 ≤ k.val ∧ k.val ≤ 3 ∧ l.waitTicks.toNat = 256 ^ k.val) := by
  have hlt : l.waitTicks.toNat < 256 ^ 4 := l.waitTicks.toNat_lt
  have hk : k.val < 5 := k.isLt
  rw [SoundCheck, expired_tickAfter_iff, zero_mem_valuesDuring_tickAfter_iff]
  constructor
  · -- so large a value is not at zero one tick later
    rintro hsound ⟨hfirst, -, hborrow⟩
    have hlarge : 256 ^ 1 ≤ 256 ^ k.val := Nat.pow_le_pow_right (by decide) hfirst
    have hsmall := hsound (Or.inr hborrow)
    omega
  · rintro hno (hzero | hborrow)
    · omega
    · -- before the first load and after the last one the value read is a whole one
      have houter : k.val = 0 ∨ k.val = 4 := by
        by_contra hinner
        exact hno ⟨by omega, by omega, hborrow⟩
      rcases houter with hbefore | hafter
      · rw [hbefore] at hborrow
        omega
      · rw [hafter] at hborrow
        omega

/-- **When the check is sound**: for every value of `wait_ticks` and every placement of
    the tick, the check is sound unless the tick comes after `k` of the four loads, with
    `k` one, two or three, and finds `256 ^ k` in `wait_ticks`. -/
theorem soundCheck_iff (l : Locc) (p : Interleaving) :
    SoundCheck l p ↔
      ¬ ∃ k : Fin 5, 1 ≤ k.val ∧ k.val ≤ 3 ∧ p = .tickAfter k ∧
        l.waitTicks.toNat = 256 ^ k.val := by
  rcases p.eq_undisturbed_or_tickAfter with rfl | ⟨k, rfl⟩
  · refine iff_of_true (soundCheck_undisturbed l) ?_
    rintro ⟨k, -, -, hp, -⟩
    exact Interleaving.undisturbed_ne_tickAfter k hp
  · rw [soundCheck_tickAfter_iff]
    simp [Interleaving.tickAfter_injective.eq_iff]

/-- With 256 ticks left and a tick after the first load, the bytes of 256 and of 255 that
    are loaded are all zero. -/
theorem not_soundCheck_borrow :
    ¬ SoundCheck { waitTicks := 256, currentLoccStep := 3, port := ⟨0x7F, 0x50, []⟩ }
      (.tickAfter 1) := by
  decide

/-! ## In the main loop -/

theorem waitTicks_le (events : List Event) :
    (firmware.run setup events).locc.waitTicks.toNat ≤ 15000 := by
  have hwaits : ∀ a, waits a ≤ 15000 := by decide
  have hdeadline := Sequencer.run_deadline_le hwaits (s := Sequencer.start) (Nat.zero_le _)
    (signals events)
  rw [(refines_run events).wait]
  omega

/-- No wait of the firmware reaches the third byte, so only one placement of the tick does
    harm, and only with 256 ticks left. -/
theorem soundCheck_run_iff (events : List Event) (p : Interleaving) :
    SoundCheck (firmware.run setup events).locc p ↔
      ¬ (p = .tickAfter 1 ∧ (firmware.run setup events).locc.waitTicks.toNat = 256) := by
  have hle := waitTicks_le events
  rcases p.eq_undisturbed_or_tickAfter with rfl | ⟨k, rfl⟩
  · refine iff_of_true (soundCheck_undisturbed _) ?_
    rintro ⟨hp, -⟩
    exact Interleaving.undisturbed_ne_tickAfter 1 hp
  · rw [soundCheck_tickAfter_iff, Interleaving.tickAfter_injective.eq_iff]
    refine not_congr ⟨?_, ?_⟩
    · rintro ⟨hfirst, -, hborrow⟩
      have hone : k.val = 1 := by
        by_contra hne
        have hlarge : 256 ^ 2 ≤ 256 ^ k.val := Nat.pow_le_pow_right (by decide) (by omega)
        omega
      rw [hone] at hborrow
      exact ⟨Fin.ext hone, hborrow⟩
    · rintro ⟨rfl, hborrow⟩
      exact ⟨by decide, by decide, hborrow⟩

theorem run_replicate_tick (m : Machine) (n : ℕ) :
    firmware.run m (List.replicate n .tick) = { m with locc := ticks n m.locc } := by
  induction n generalizing m with
  | zero => rfl
  | succ n ih =>
    rw [List.replicate_succ, Mealy.run_cons, ih]
    rfl

/-- The door may be locked again early: some run reaches a point where the opening has 256
    ticks of its wait left and a check by bytes reports it as over. -/
theorem exists_opening_ended_early :
    ∃ events, (firmware.run setup events).isLocking = true ∧
      (firmware.run setup events).locc.currentLoccStep = StepCase.powerdownLocc.number ∧
      (firmware.run setup events).locc.waitTicks.toNat = 256 ∧
      timerIsExpiredBytewise (firmware.run setup events).locc (.tickAfter 1) = true := by
  -- an opening, and all of its wait but the last 256 ticks
  let opened : List Event :=
    [frameOf (some '\n'.toUInt8) 0, frameOf (some 'o'.toUInt8) 0, frameOf none 59]
  have hopened : (firmware.run setup opened).isLocking = true ∧
      (firmware.run setup opened).locc.currentLoccStep = 3 ∧
      (firmware.run setup opened).locc.waitTicks = 15000 := by
    decide +kernel
  refine ⟨opened ++ List.replicate 14744 .tick, ?_⟩
  rw [Mealy.run_append, run_replicate_tick, expired_tickAfter_iff]
  generalize firmware.run setup opened = m at hopened
  obtain ⟨hlock, hstep, hwait⟩ := hopened
  have hleft : (ticks 14744 m.locc).waitTicks.toNat = 256 := by
    rw [ticks_waitTicks, hwait]
    rfl
  refine ⟨hlock, ?_, hleft, Or.inr hleft⟩
  rw [ticks_currentLoccStep, hstep]
  rfl

end LoccFirmware.System
