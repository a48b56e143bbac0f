import LoccFirmware.Automata.Mealy
import Mathlib.Data.Fin.Basic
import Mathlib.Data.List.Count

/-!
# Timed Sequencers

A sequencer performs `n` actions in a fixed order, over and over, and waits a fixed
time after each of them.  It rests until a request starts the next cycle, looks at the
clock only when it is polled, and a request that arrives in the middle of a cycle is
dropped.

The phases form a cycle `0, 1, …, n, 0, …`.  In phase `0` the sequencer rests and an
accepted request takes it to phase `1`; in every other phase the action of that number
is due and takes it to the next.  So accepted requests and actions together count the
phases up, one by one, which is the order theorem of this file.

## Main definitions

- `Window`: the clock ticks around a poll
- `Signal`, `Response`: the inputs and outputs of a sequencer
- `Sequencer`, `Sequencer.machine`: the machine

## Main results

- `Sequencer.marks_eq_cycle`: the accepted requests and the actions of every run, in
  their order, are `0, 1, …, n, 0, 1, …`
- `Sequencer.exists_rest`: a run that is polled often enough finishes its cycle
-/

namespace LoccFirmware.Automata

/-! ## Signals and responses -/

/-- The ticks of the clock that pass before a poll looks at it, and those that pass
after this until the poll is over. -/
structure Window where
  early : ℕ
  late : ℕ
  deriving DecidableEq, Repr

/-- All ticks of a list of windows. -/
def elapsed : List Window → ℕ
  | [] => 0
  | w :: ws => w.early + w.late + elapsed ws

@[simp] theorem elapsed_nil : elapsed [] = 0 := rfl

@[simp] theorem elapsed_cons (w : Window) (ws : List Window) :
    elapsed (w :: ws) = w.early + w.late + elapsed ws := rfl

@[simp] theorem elapsed_append (ws ws' : List Window) :
    elapsed (ws ++ ws') = elapsed ws + elapsed ws' := by
  induction ws with
  | nil => simp
  | cons w ws ih => simp only [List.cons_append, elapsed_cons, ih, Nat.add_assoc]

/-- What reaches a sequencer: time passes, and it may be polled, with or without a
request. -/
structure Signal extends Window where
  poll : Option Bool
  deriving DecidableEq, Repr

/-- What a sequencer does on a signal: it accepts a request, performs an action, both
in this order, or neither. -/
@[ext] structure Response (n : ℕ) where
  accepted : Bool
  action : Option (Fin (n + 1))
  deriving DecidableEq, Repr

/-- The phases left on one signal. -/
def Response.marks {n : ℕ} (r : Response n) : List (Fin (n + 1)) :=
  (if r.accepted then [0] else []) ++ r.action.toList

/-! ## The machine -/

/-- The phase, the time at which the current wait is over, and the time. -/
@[ext] structure Sequencer (n : ℕ) where
  phase : Fin (n + 1)
  deadline : ℕ
  now : ℕ
  deriving DecidableEq, Repr

namespace Sequencer

variable {n : ℕ}

/-- At rest, with no wait pending. -/
def start : Sequencer n where
  phase := 0
  deadline := 0
  now := 0

/-- A request is accepted at rest only. -/
def accepts (s : Sequencer n) (x : Signal) : Bool :=
  decide (s.phase = 0) && decide (x.poll = some true)

/-- The phase once the request, if any, has been dealt with. -/
def polledPhase (s : Sequencer n) (x : Signal) : Fin (n + 1) :=
  if s.accepts x then s.phase + 1 else s.phase

/-- A poll performs the action that is due if the wait is over when it looks. -/
def fires (s : Sequencer n) (x : Signal) : Bool :=
  x.poll.isSome && decide (s.polledPhase x ≠ 0) && decide (s.deadline ≤ s.now + x.early)

/-- One signal.  The new wait starts when the poll is over. -/
def step (delay : Fin (n + 1) → ℕ) (s : Sequencer n) (x : Signal) :
    Sequencer n × Response n :=
  let now := s.now + (x.early + x.late)
  if s.fires x then
    ({ phase := s.polledPhase x + 1, deadline := now + delay (s.polledPhase x), now := now },
      { accepted := s.accepts x, action := some (s.polledPhase x) })
  else
    ({ phase := s.polledPhase x, deadline := s.deadline, now := now },
      { accepted := s.accepts x, action := none })

/-- The sequencer with the given wait after each action. -/
def machine (delay : Fin (n + 1) → ℕ) : Mealy (Sequencer n) Signal (Response n) where
  step := step delay

variable {delay : Fin (n + 1) → ℕ} {s : Sequencer n} {x : Signal}

theorem step_of_fires (h : s.fires x = true) :
    (machine delay).step s x =
      ({ phase := s.polledPhase x + 1,
         deadline := s.now + (x.early + x.late) + delay (s.polledPhase x),
         now := s.now + (x.early + x.late) },
       { accepted := s.accepts x, action := some (s.polledPhase x) }) :=
  if_pos h

theorem step_of_not_fires (h : s.fires x = false) :
    (machine delay).step s x =
      ({ phase := s.polledPhase x, deadline := s.deadline, now := s.now + (x.early + x.late) },
       { accepted := s.accepts x, action := none }) :=
  if_neg (by rw [h]; exact Bool.false_ne_true)

@[simp] theorem step_now : ((machine delay).step s x).1.now = s.now + (x.early + x.late) := by
  by_cases h : s.fires x = true
  · rw [step_of_fires h]
  · rw [step_of_not_fires (Bool.eq_false_iff.mpr h)]

@[simp] theorem step_accepted : ((machine delay).step s x).2.accepted = s.accepts x := by
  by_cases h : s.fires x = true
  · rw [step_of_fires h]
  · rw [step_of_not_fires (Bool.eq_false_iff.mpr h)]

theorem step_action (a : Fin (n + 1)) :
    ((machine delay).step s x).2.action = some a ↔ s.fires x = true ∧ s.polledPhase x = a := by
  by_cases h : s.fires x = true
  · simp [step_of_fires h, h]
  · simp [step_of_not_fires (Bool.eq_false_iff.mpr h), h]

theorem fires_iff :
    s.fires x = true ↔
      x.poll.isSome = true ∧ s.polledPhase x ≠ 0 ∧ s.deadline ≤ s.now + x.early := by
  simp [fires, and_assoc]

theorem accepts_iff : s.accepts x = true ↔ s.phase = 0 ∧ x.poll = some true := by
  simp [accepts]

/-- Away from rest no request is accepted. -/
theorem polledPhase_of_phase_ne_zero (h : s.phase ≠ 0) : s.polledPhase x = s.phase := by
  simp [polledPhase, accepts, h]

/-- The action numbered `0` does not exist. -/
theorem step_action_ne_zero : ((machine delay).step s x).2.action ≠ some 0 := by
  rw [Ne, step_action]
  rintro ⟨hfires, hzero⟩
  exact (fires_iff.mp hfires).2.1 hzero

/-! ## Order -/

/-- The action after `a`: after the last one of a cycle comes the first one. -/
def succ (a : Fin (n + 1)) : Fin (n + 1) :=
  if a + 1 = 0 then 1 else a + 1

/-- The first `k` phases. -/
def cycle (n k : ℕ) : List (Fin (n + 1)) :=
  (List.range k).map (Fin.ofNat (n + 1))

/-- The phases left during a run. -/
def marks (rs : List (Response n)) : List (Fin (n + 1)) :=
  rs.flatMap Response.marks

theorem ofNat_succ (k : ℕ) : Fin.ofNat (n + 1) (k + 1) = Fin.ofNat (n + 1) k + 1 := by
  ext
  simp [Fin.val_add]

theorem cycle_add (k m : ℕ) :
    cycle n (k + m) = cycle n k ++ (List.range' k m).map (Fin.ofNat (n + 1)) := by
  rw [cycle, cycle, List.range_add, List.map_append, List.range'_eq_map_range]

/-- What comes first in the cycle is the cycle again. -/
theorem take_cycle (k m : ℕ) : (cycle n k).take m = cycle n (min m k) := by
  rw [cycle, ← List.map_take, List.take_range, cycle]

/-- Whole cycles repeat the first one. -/
theorem cycle_mul (N : ℕ) :
    cycle n (N * (n + 1)) = (List.replicate N (cycle n (n + 1))).flatten := by
  induction N with
  | zero => simp [cycle]
  | succ N ih =>
    -- numbers a whole cycle apart stand for the same phase
    have hshift : (List.range' (N * (n + 1)) (n + 1)).map (Fin.ofNat (n + 1)) =
        cycle n (n + 1) := by
      rw [List.range'_eq_map_range, List.map_map, cycle]
      refine List.map_congr_left fun i _ => Fin.ext ?_
      simp
    rw [Nat.succ_mul, cycle_add, ih, hshift, List.replicate_succ', List.flatten_append,
      List.flatten_singleton]

/-- The first phases are the beginning of whole cycles. -/
theorem cycle_prefix (k : ℕ) : cycle n k <+: (List.replicate k (cycle n (n + 1))).flatten := by
  have hsplit : k * (n + 1) = k + k * n := by
    rw [Nat.mul_add_one, Nat.add_comm]
  rw [← cycle_mul, hsplit, cycle_add]
  exact List.prefix_append _ _

/-- One signal: the marks go on counting from the phase the sequencer is in. -/
theorem step_marks (delay : Fin (n + 1) → ℕ) (x : Signal) {k : ℕ}
    (hs : s.phase = Fin.ofNat (n + 1) k) :
    ∃ m, ((machine delay).step s x).2.marks = (List.range' k m).map (Fin.ofNat (n + 1)) ∧
      ((machine delay).step s x).1.phase = Fin.ofNat (n + 1) (k + m) := by
  -- the request first: it is accepted in phase 0 only, so its mark is that phase
  obtain ⟨m, hmark, hphase⟩ : ∃ m,
      (if s.accepts x then [(0 : Fin (n + 1))] else []) =
        (List.range' k m).map (Fin.ofNat (n + 1)) ∧
      s.polledPhase x = Fin.ofNat (n + 1) (k + m) := by
    by_cases h : s.accepts x = true
    · refine ⟨1, ?_, ?_⟩
      · rw [if_pos h, List.range'_one, List.map_singleton, ← hs, (accepts_iff.mp h).1]
      · rw [polledPhase, if_pos h, hs, ofNat_succ]
    · exact ⟨0, by simp [h], by rw [polledPhase, if_neg h, hs]; rfl⟩
  -- then the action, whose mark is the phase found
  by_cases h : s.fires x = true
  · refine ⟨m + 1, ?_, ?_⟩
    · rw [step_of_fires h, Response.marks, hmark, Option.toList_some, hphase,
        List.range'_concat, List.map_append, List.map_singleton, Nat.one_mul]
    · rw [step_of_fires h, hphase]
      exact (ofNat_succ (k + m)).symm
  · refine ⟨m, ?_, ?_⟩
    · rw [step_of_not_fires (Bool.eq_false_iff.mpr h), Response.marks, hmark,
        Option.toList_none, List.append_nil]
    · rw [step_of_not_fires (Bool.eq_false_iff.mpr h), hphase]

/-- **Order**: accepted requests and actions count the phases up from 0, and the phase
is where the count stands. -/
theorem marks_eq_cycle (delay : Fin (n + 1) → ℕ) (xs : List Signal) :
    ∃ k, marks ((machine delay).outputs start xs) = cycle n k ∧
      ((machine delay).run start xs).phase = Fin.ofNat (n + 1) k := by
  refine Mealy.history_induction (M := machine delay) (s := start)
    (P := fun _ s rs => ∃ k, marks rs = cycle n k ∧ s.phase = Fin.ofNat (n + 1) k)
    ⟨0, rfl, rfl⟩ (fun xs x ih => ?_) xs
  obtain ⟨k, hmarks, hphase⟩ := ih
  obtain ⟨m, hstep, hphase'⟩ := step_marks delay x hphase
  refine ⟨k + m, ?_, hphase'⟩
  rw [marks, List.flatMap_append, List.flatMap_singleton, hstep, ← marks, hmarks, cycle_add]

theorem succ_mod_succ (n k : ℕ) :
    (k + 1) % (n + 1) = if k % (n + 1) = n then 0 else k % (n + 1) + 1 := by
  have hdiv := Nat.div_add_mod k (n + 1)
  split
  · rename_i h
    have hk : k + 1 = (n + 1) * (k / (n + 1) + 1) := by
      rw [Nat.mul_add]
      omega
    rw [hk, Nat.mul_mod_right]
  · rename_i h
    have hlt : k % (n + 1) < n + 1 := Nat.mod_lt k (Nat.succ_pos n)
    have hk : k + 1 = (n + 1) * (k / (n + 1)) + (k % (n + 1) + 1) := by omega
    rw [hk, Nat.mul_add_mod, Nat.mod_eq_of_lt (by omega)]

/-- In the cycle, a phase `b` follows each phase `a` before it: they have been left equally
often, except while the count stands between them. -/
theorem count_cycle {a b : Fin (n + 1)} (hab : a < b) (k : ℕ) :
    (cycle n k).count a = (cycle n k).count b +
      if a.val < k % (n + 1) ∧ k % (n + 1) ≤ b.val then 1 else 0 := by
  induction k with
  | zero => simp [cycle]
  | succ k ih =>
    have hlt : k % (n + 1) < n + 1 := Nat.mod_lt k (Nat.succ_pos n)
    have hmod : (k + 1) % (n + 1) = if k % (n + 1) = n then 0 else k % (n + 1) + 1 :=
      succ_mod_succ n k
    have hval (c : Fin (n + 1)) : Fin.ofNat (n + 1) k = c ↔ k % (n + 1) = c.val := by
      rw [Fin.ext_iff, Fin.val_ofNat]
    have hb := b.isLt
    rw [cycle_add k 1, List.count_append, List.count_append, ih, hmod, List.range'_one,
      List.map_singleton, List.count_singleton, List.count_singleton]
    simp only [beq_iff_eq, hval]
    rw [Fin.lt_def] at hab
    -- the count moves on from `r`, which is before, at, between or behind the two
    generalize k % (n + 1) = r at hlt
    split_ifs <;> omega

/-! ## Completion -/

/-- A stretch that no wait of at most `bound` ticks outlasts: that many ticks, and then a
poll. -/
def Rouses (bound : ℕ) (xs : List Signal) : Prop :=
  ∃ pre x, xs = pre ++ [x] ∧ x.poll.isSome = true ∧
    bound ≤ elapsed (pre.map Signal.toWindow) + x.early

/-- An action leads to rest or to a later phase. -/
theorem step_rest_or_progress (delay : Fin (n + 1) → ℕ) (hs : s.phase ≠ 0) (hf : s.fires x = true) :
    ((machine delay).step s x).1.phase = 0 ∨ s.phase < ((machine delay).step s x).1.phase := by
  rw [step_of_fires hf, polledPhase_of_phase_ne_zero hs]
  -- after the last action the phase wraps round to 0
  rcases Fin.eq_or_lt_of_le (Fin.le_last s.phase) with hlast | hlt
  · exact Or.inl (by rw [hlast]; exact Fin.last_add_one n)
  · exact Or.inr (Fin.lt_add_one_iff.mpr hlt)

/-- During a stretch, a sequencer that is not at rest comes to rest, gets on, or stays
where it is and waits. -/
theorem run_trichotomy (delay : Fin (n + 1) → ℕ) (hs : s.phase ≠ 0) (xs : List Signal) :
    (∃ q, q <+: xs ∧ ((machine delay).run s q).phase = 0) ∨
    s.phase < ((machine delay).run s xs).phase ∨
    (((machine delay).run s xs).phase = s.phase ∧
      ((machine delay).run s xs).deadline = s.deadline ∧
      ((machine delay).run s xs).now = s.now + elapsed (xs.map Signal.toWindow)) := by
  induction xs generalizing s with
  | nil => exact Or.inr (Or.inr ⟨rfl, rfl, rfl⟩)
  | cons x xs ih =>
    have hpolled : s.polledPhase x = s.phase := polledPhase_of_phase_ne_zero hs
    -- an action leads on, no action leaves the sequencer waiting
    by_cases hf : s.fires x = true
    · rcases step_rest_or_progress delay hs hf with hzero | hlt
      · exact Or.inl ⟨[x], by simp, hzero⟩
      · rcases ih (s := ((machine delay).step s x).1) (Fin.ne_zero_of_lt hlt) with
          ⟨q, hq, hrest⟩ | hprog | ⟨hsame, -, -⟩
        · exact Or.inl ⟨x :: q, by simpa using hq, hrest⟩
        · exact Or.inr (Or.inl (Fin.lt_trans hlt hprog))
        · exact Or.inr (Or.inl (by rw [Mealy.run_cons, hsame]; exact hlt))
    · have hstep : (machine delay).step s x = _ := step_of_not_fires (Bool.eq_false_iff.mpr hf)
      have hnext : ((machine delay).step s x).1.phase = s.phase := by rw [hstep, hpolled]
      rcases ih (s := ((machine delay).step s x).1) (by rw [hnext]; exact hs) with
        ⟨q, hq, hrest⟩ | hprog | ⟨hsame, hdeadline, hnow⟩
      · exact Or.inl ⟨x :: q, by simpa using hq, hrest⟩
      · exact Or.inr (Or.inl (by rw [← hnext]; exact hprog))
      · refine Or.inr (Or.inr ⟨hsame.trans hnext, ?_, ?_⟩)
        · rw [Mealy.run_cons, hdeadline, hstep]
        · rw [Mealy.run_cons, hnow, step_now, List.map_cons, elapsed_cons, Nat.add_assoc]

theorem step_deadline_le {bound : ℕ} (hdelay : ∀ a, delay a ≤ bound)
    (hs : s.deadline ≤ s.now + bound) :
    ((machine delay).step s x).1.deadline ≤ ((machine delay).step s x).1.now + bound := by
  by_cases hf : s.fires x = true
  · rw [step_of_fires hf]
    exact Nat.add_le_add_left (hdelay _) _
  · rw [step_of_not_fires (Bool.eq_false_iff.mpr hf)]
    exact hs.trans (by simp only; omega)

theorem run_deadline_le {bound : ℕ} (hdelay : ∀ a, delay a ≤ bound)
    (hs : s.deadline ≤ s.now + bound) (xs : List Signal) :
    ((machine delay).run s xs).deadline ≤ ((machine delay).run s xs).now + bound :=
  Mealy.run_induction (M := machine delay) (I := fun s => s.deadline ≤ s.now + bound)
    (fun _ _ h => step_deadline_le hdelay h) hs xs

/-- One rousing stretch: the sequencer comes to rest in it or gets on. -/
theorem rest_or_progress {bound : ℕ} (hs : s.phase ≠ 0) (hdeadline : s.deadline ≤ s.now + bound)
    {xs : List Signal} (hxs : Rouses bound xs) :
    (∃ q, q <+: xs ∧ ((machine delay).run s q).phase = 0) ∨
      s.phase < ((machine delay).run s xs).phase := by
  obtain ⟨pre, x, rfl, hpoll, hbound⟩ := hxs
  rcases run_trichotomy delay hs pre with ⟨q, hq, hrest⟩ | hprog | ⟨hsame, hwait, hnow⟩
  · exact Or.inl ⟨q, hq.trans (List.prefix_append pre [x]), hrest⟩
  · -- it got on before the poll, which cannot take it back except to rest
    rcases run_trichotomy delay (Fin.ne_zero_of_lt hprog) [x] with
      ⟨q, hq, hrest⟩ | hprog' | ⟨hsame, -, -⟩
    · refine Or.inl ⟨pre ++ q, (List.prefix_append_right_inj pre).mpr hq, ?_⟩
      rw [Mealy.run_append]
      exact hrest
    · exact Or.inr (by rw [Mealy.run_append]; exact Fin.lt_trans hprog hprog')
    · exact Or.inr (by rw [Mealy.run_append, hsame]; exact hprog)
  · -- it only waited, and the poll finds the wait over
    have hs' : ((machine delay).run s pre).phase ≠ 0 := by rw [hsame]; exact hs
    have hf : ((machine delay).run s pre).fires x = true := by
      rw [fires_iff, polledPhase_of_phase_ne_zero hs', hwait, hnow]
      exact ⟨hpoll, hs', by omega⟩
    rcases step_rest_or_progress delay hs' hf with hzero | hlt
    · exact Or.inl ⟨pre ++ [x], List.prefix_refl _, by rw [Mealy.run_concat]; exact hzero⟩
    · exact Or.inr (by rw [Mealy.run_concat, ← hsame]; exact hlt)

/-- **Completion**: whatever the signals, a sequencer is at rest at some point of every
stretch that rouses it once for each phase ahead of it. -/
theorem exists_rest {bound : ℕ} (hdelay : ∀ a, delay a ≤ bound) {s : Sequencer n}
    (hdeadline : s.deadline ≤ s.now + bound) {blocks : List (List Signal)}
    (hblocks : ∀ b ∈ blocks, Rouses bound b) (hlen : n + 1 ≤ blocks.length + s.phase.val) :
    ∃ q, q <+: blocks.flatten ∧ ((machine delay).run s q).phase = 0 := by
  induction blocks generalizing s with
  -- there are never more phases ahead than `n`
  | nil =>
    have := s.phase.isLt
    simp only [List.length_nil] at hlen
    omega
  | cons b blocks ih =>
    by_cases hs : s.phase = 0
    · exact ⟨[], List.nil_prefix, hs⟩
    · rcases rest_or_progress hs hdeadline (hblocks b List.mem_cons_self) with
        ⟨q, hq, hrest⟩ | hprog
      · exact ⟨q, hq.trans (by simp), hrest⟩
      · -- one phase fewer is ahead, and one block fewer is left
        have hdeadline' : ((machine delay).run s b).deadline ≤
            ((machine delay).run s b).now + bound :=
          run_deadline_le hdelay hdeadline b
        rw [Fin.lt_def] at hprog
        obtain ⟨q, hq, hrest⟩ := ih hdeadline'
          (fun b' hb' => hblocks b' (List.mem_cons_of_mem b hb'))
          (by rw [List.length_cons] at hlen; omega)
        refine ⟨b ++ q, ?_, by rw [Mealy.run_append]; exact hrest⟩
        rw [List.flatten_cons]
        exact (List.prefix_append_right_inj b).mpr hq

end Sequencer

end LoccFirmware.Automata
