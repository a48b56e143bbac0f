import LoccFirmware.Automata.Sequencer
import Mathlib.Order.Bounds.Defs

/-!
# Sequencers: Timing

When does a sequencer perform its next action?  The clock is read off the signals: the
poll at position `j` looks at it at `checkAt`, and the wait after an action at position
`i` starts at `setAt`.  The next action is performed at the first position that is `Due`:
the wait is over when the poll looks and, if the last action completed a cycle, a
request has been accepted since.

The invariant behind this is `Waiting`: the deadline is the time of the last action plus
its delay, and the phase says which action is next.

## Main results

- `Sequencer.next_iff_isLeast_due`: the next action comes at the first due position
- `Sequencer.succ_of_next`: and it is the next one in the cycle
- `Sequencer.first_or_next`: every action but the first is the next one after another
-/

namespace LoccFirmware.Automata

/-! ## Positions and times -/

/-- `j` is the first position after `i` at which something happens. -/
def Next {α : Type*} (acts : ℕ → Option α) (i j : ℕ) : Prop :=
  i < j ∧ (acts j).isSome = true ∧ ∀ k, i < k → k < j → acts k = none

/-- The time at which the poll at position `j` looks at the clock. -/
def checkAt (ws : List Window) (j : ℕ) : ℕ :=
  elapsed (ws.take j) + (ws[j]?.map Window.early).getD 0

/-- The time at which position `i` is over. -/
def setAt (ws : List Window) (i : ℕ) : ℕ :=
  elapsed (ws.take (i + 1))

section Times

variable (ws : List Window)

theorem elapsed_take_le (i : ℕ) : elapsed (ws.take i) ≤ elapsed ws := by
  conv_rhs => rw [← List.take_append_drop i ws, elapsed_append]
  exact Nat.le_add_right _ _

/-- A poll looks at the clock before its position is over. -/
theorem checkAt_le_setAt (i : ℕ) : checkAt ws i ≤ setAt ws i := by
  unfold checkAt setAt
  rw [List.take_add_one, elapsed_append]
  cases ws[i]? with
  | none => simp
  | some w => simp

variable {ws}

/-- The polls of later positions look at it after that. -/
theorem setAt_le_checkAt {i j : ℕ} (hij : i < j) : setAt ws i ≤ checkAt ws j := by
  have htake := elapsed_take_le (ws.take j) (i + 1)
  rw [List.take_take, Nat.min_eq_left hij] at htake
  exact Nat.le_trans htake (Nat.le_add_right _ _)

theorem checkAt_mono {i j : ℕ} (hij : i ≤ j) : checkAt ws i ≤ checkAt ws j := by
  rcases Nat.lt_or_eq_of_le hij with hlt | rfl
  · exact Nat.le_trans (checkAt_le_setAt ws i) (setAt_le_checkAt hlt)
  · exact Nat.le_refl _

/-- All ticks at a position. -/
def ticksAt (ws : List Window) (k : ℕ) : ℕ :=
  (ws[k]?.map fun w => w.early + w.late).getD 0

/-- The ticks at a position before the poll there looks at the clock. -/
def earlyAt (ws : List Window) (k : ℕ) : ℕ :=
  (ws[k]?.map Window.early).getD 0

theorem elapsed_take_succ (ws : List Window) (k : ℕ) :
    elapsed (ws.take (k + 1)) = elapsed (ws.take k) + ticksAt ws k := by
  rw [List.take_add_one, elapsed_append, ticksAt]
  cases ws[k]? with
  | none => rfl
  | some w => simp

/-- What was waited from one position to another on one clock was waited on another one
    that runs at least as fast between them, up to what it lacks at the end. -/
theorem waited_of_ticksAt_le {ws ws' : List Window} {i j wait slack : ℕ} (hij : i < j)
    (hbetween : ∀ k, i < k → k < j → ticksAt ws k ≤ ticksAt ws' k)
    (hlast : earlyAt ws j ≤ earlyAt ws' j + slack)
    (h : setAt ws i + wait ≤ checkAt ws j) :
    setAt ws' i + wait ≤ checkAt ws' j + slack := by
  -- between the two positions the second clock falls behind at no point
  have hgain : ∀ n, i + 1 + n ≤ j →
      elapsed (ws.take (i + 1 + n)) + elapsed (ws'.take (i + 1)) ≤
        elapsed (ws'.take (i + 1 + n)) + elapsed (ws.take (i + 1)) := by
    intro n
    induction n with
    | zero => intro _; exact Nat.le_of_eq (Nat.add_comm _ _)
    | succ n ih =>
      intro hn
      have hstep := hbetween (i + 1 + n) (by omega) (by omega)
      rw [← Nat.add_assoc, elapsed_take_succ ws, elapsed_take_succ ws' (i + 1 + n)]
      have hle := ih (by omega)
      omega
  have hle := hgain (j - (i + 1)) (by omega)
  rw [Nat.add_sub_cancel' hij] at hle
  simp only [checkAt, setAt, earlyAt] at h hlast ⊢
  omega

end Times

namespace Sequencer

variable {n : ℕ}

/-- The action performed at a position. -/
def actionAt (rs : List (Response n)) (k : ℕ) : Option (Fin (n + 1)) :=
  rs[k]?.bind Response.action

/-- A request is accepted at a position. -/
def AcceptsAt (rs : List (Response n)) (k : ℕ) : Prop :=
  rs[k]?.map Response.accepted = some true

/-- At position `j` the action that follows the action `a` of position `i` is due. -/
structure Due (delay : Fin (n + 1) → ℕ) (xs : List Signal) (rs : List (Response n))
    (i : ℕ) (a : Fin (n + 1)) (j : ℕ) : Prop where
  after : i < j
  polled : ∃ x, xs[j]? = some x ∧ x.poll.isSome = true
  waited : setAt (xs.map Signal.toWindow) i + delay a ≤ checkAt (xs.map Signal.toWindow) j
  requested : a + 1 = 0 → ∃ k, i < k ∧ k ≤ j ∧ AcceptsAt rs k

/-! ## Histories that grow -/

section Growing

variable {rs : List (Response n)} {r : Response n} {k : ℕ}

theorem actionAt_of_length_le (h : rs.length ≤ k) : actionAt rs k = none := by
  rw [actionAt, List.getElem?_eq_none h, Option.bind_none]

theorem actionAt_concat_lt (h : k < rs.length) : actionAt (rs ++ [r]) k = actionAt rs k := by
  rw [actionAt, List.getElem?_append_left h, actionAt]

theorem actionAt_concat_length : actionAt (rs ++ [r]) rs.length = r.action := by
  rw [actionAt, List.getElem?_concat_length, Option.bind_some]

theorem actionAt_concat_of_none (hr : r.action = none) :
    actionAt (rs ++ [r]) k = actionAt rs k := by
  rcases Nat.lt_trichotomy k rs.length with hlt | rfl | hgt
  · exact actionAt_concat_lt hlt
  · rw [actionAt_concat_length, hr, actionAt_of_length_le (Nat.le_refl _)]
  · rw [actionAt_of_length_le (by simp; omega), actionAt_of_length_le (Nat.le_of_lt hgt)]

theorem lt_length_of_actionAt {a : Fin (n + 1)} (h : actionAt rs k = some a) : k < rs.length := by
  by_contra hk
  rw [actionAt_of_length_le (Nat.le_of_not_lt hk)] at h
  cases h

theorem acceptsAt_concat_iff :
    AcceptsAt (rs ++ [r]) k ↔ AcceptsAt rs k ∨ (k = rs.length ∧ r.accepted = true) := by
  simp only [AcceptsAt, Option.map_eq_some_iff, getElem?_concat_eq_some_iff]
  constructor
  · rintro ⟨r', hold | ⟨hk, rfl⟩, hacc⟩
    · exact Or.inl ⟨r', hold, hacc⟩
    · exact Or.inr ⟨hk, hacc⟩
  · rintro (⟨r', hold, hacc⟩ | ⟨hk, hacc⟩)
    · exact ⟨r', Or.inl hold, hacc⟩
    · exact ⟨r, Or.inr ⟨hk, rfl⟩, hacc⟩

theorem setAt_concat {ws : List Window} {w : Window} {i : ℕ} (h : i < ws.length) :
    setAt (ws ++ [w]) i = setAt ws i := by
  rw [setAt, List.take_append_of_le_length h, setAt]

theorem setAt_concat_length (ws : List Window) (w : Window) :
    setAt (ws ++ [w]) ws.length = elapsed ws + (w.early + w.late) := by
  have htake : (ws ++ [w]).take (ws.length + 1) = ws ++ [w] :=
    List.take_of_length_le (by simp)
  rw [setAt, htake, elapsed_append, elapsed_cons, elapsed_nil, Nat.add_zero]

end Growing

/-! ## The invariant -/

variable (delay : Fin (n + 1) → ℕ)

/-- The last action of the history was `a`, at position `i`; the deadline is its time plus
its delay, and the phase is that of the next action, or rest if a cycle is complete and
no request has been accepted since. -/
structure Waiting (ws : List Window) (rs : List (Response n)) (i : ℕ) (a : Fin (n + 1))
    (s : Sequencer n) : Prop where
  acts : actionAt rs i = some a
  ne_zero : a ≠ 0
  quiet : ∀ k, i < k → actionAt rs k = none
  deadline : s.deadline = setAt ws i + delay a
  busy : a + 1 ≠ 0 → s.phase = a + 1
  requested : a + 1 = 0 → (∃ k, i < k ∧ AcceptsAt rs k) → s.phase = 1
  resting : a + 1 = 0 → (¬ ∃ k, i < k ∧ AcceptsAt rs k) → s.phase = 0

/-- Nothing has been performed yet. -/
structure Fresh (rs : List (Response n)) (s : Sequencer n) : Prop where
  quiet : ∀ k, actionAt rs k = none
  phase : s.phase = 0
  deadline : s.deadline = 0

/-- What a history says about the state it led to. -/
structure Tracks (ws : List Window) (rs : List (Response n)) (s : Sequencer n) : Prop where
  length : rs.length = ws.length
  now : s.now = elapsed ws
  last : Fresh rs s ∨ ∃ i a, Waiting delay ws rs i a s

variable {delay} {ws : List Window} {rs : List (Response n)} {i : ℕ} {a : Fin (n + 1)}
  {s : Sequencer n} {x : Signal}

theorem one_ne_zero_of_ne_zero (ha : a ≠ 0) : (1 : Fin (n + 1)) ≠ 0 := by
  intro h
  have hn : n = 0 := by simpa using h
  subst hn
  exact ha (Fin.eq_zero a)

/-- Which action a poll finds due. -/
theorem Waiting.polledPhase_spec (h : Waiting delay ws rs i a s) (hi : i < rs.length)
    {r : Response n} (hr : r.accepted = s.accepts x) :
    (s.polledPhase x ≠ 0 → s.polledPhase x = succ a) ∧
    (s.polledPhase x ≠ 0 ↔ (a + 1 = 0 → ∃ k, i < k ∧ AcceptsAt (rs ++ [r]) k)) := by
  by_cases ha : a + 1 = 0
  · -- a cycle is complete: only an accepted request makes the first action due
    have hone : (1 : Fin (n + 1)) ≠ 0 := one_ne_zero_of_ne_zero h.ne_zero
    simp only [succ, ha, forall_const, acceptsAt_concat_iff]
    -- it was accepted before, it is accepted now, or there is none
    by_cases hreq : ∃ k, i < k ∧ AcceptsAt rs k
    · have hphase : s.phase = 1 := h.requested ha hreq
      obtain ⟨k, hk, hacc⟩ := hreq
      have hpolled : s.polledPhase x = 1 := by
        rw [polledPhase_of_phase_ne_zero (by rw [hphase]; exact hone), hphase]
      rw [hpolled]
      exact ⟨fun _ => rfl, fun _ => ⟨k, hk, Or.inl hacc⟩, fun _ => hone⟩
    · have hphase : s.phase = 0 := h.resting ha hreq
      by_cases hacc : s.accepts x = true
      · have hpolled : s.polledPhase x = 1 := by
          rw [polledPhase, if_pos hacc, hphase, Fin.zero_add]
        rw [hpolled]
        exact ⟨fun _ => rfl, fun _ => ⟨rs.length, hi, Or.inr ⟨rfl, hr.trans hacc⟩⟩, fun _ => hone⟩
      · have hpolled : s.polledPhase x = 0 := by rw [polledPhase, if_neg hacc, hphase]
        rw [hpolled]
        refine ⟨fun hne => absurd rfl hne, fun hne => absurd rfl hne, ?_⟩
        rintro ⟨k, hk, hold | ⟨-, hnew⟩⟩
        · exact absurd ⟨k, hk, hold⟩ hreq
        · exact absurd (hr.symm.trans hnew) hacc
  · -- in the middle of a cycle requests do not matter
    have hpolled : s.polledPhase x = a + 1 := by
      rw [polledPhase_of_phase_ne_zero (by rw [h.busy ha]; exact ha), h.busy ha]
    rw [hpolled, succ, if_neg ha]
    exact ⟨fun _ => rfl, fun _ h0 => absurd h0 ha, fun _ => ha⟩

/-- An action starts a new wait. -/
theorem waiting_of_fires (hlen : rs.length = ws.length) (hnow : s.now = elapsed ws)
    (hf : s.fires x = true) :
    Waiting delay (ws ++ [x.toWindow]) (rs ++ [((machine delay).step s x).2]) rs.length
      (s.polledPhase x) ((machine delay).step s x).1 where
  acts := by rw [actionAt_concat_length, step_of_fires hf]
  ne_zero := (fires_iff.mp hf).2.1
  quiet k hk := actionAt_of_length_le (by simp; omega)
  deadline := by rw [hlen, setAt_concat_length, step_of_fires hf, hnow]
  busy _ := by rw [step_of_fires hf]
  requested := by
    -- no position comes after the last one
    rintro - ⟨k, hk, hacc⟩
    rw [acceptsAt_concat_iff, AcceptsAt, List.getElem?_eq_none (Nat.le_of_lt hk)] at hacc
    rcases hacc with hacc | ⟨hacc, -⟩
    · cases hacc
    · omega
  resting ha _ := by rw [step_of_fires hf]; exact ha

/-- Without an action the wait goes on. -/
theorem Waiting.of_not_fires (h : Waiting delay ws rs i a s) (hlen : rs.length = ws.length)
    (hf : s.fires x = false) :
    Waiting delay (ws ++ [x.toWindow]) (rs ++ [((machine delay).step s x).2]) i a
      ((machine delay).step s x).1 := by
  have hi : i < rs.length := lt_length_of_actionAt h.acts
  have hphase : ((machine delay).step s x).1.phase = s.polledPhase x := by
    rw [step_of_not_fires hf]
  have hnone : ((machine delay).step s x).2.action = none := by rw [step_of_not_fires hf]
  obtain ⟨hsucc, hdue⟩ := h.polledPhase_spec hi (r := ((machine delay).step s x).2) step_accepted
  refine
    { acts := ?_, ne_zero := h.ne_zero, quiet := ?_, deadline := ?_, busy := ?_,
      requested := ?_, resting := ?_ }
  · rw [actionAt_concat_of_none hnone, h.acts]
  · intro k hk
    rw [actionAt_concat_of_none hnone, h.quiet k hk]
  · rw [setAt_concat (hlen ▸ hi), step_of_not_fires hf]
    exact h.deadline
  · intro ha
    rw [hphase, hsucc (hdue.mpr fun h0 => absurd h0 ha), succ, if_neg ha]
  · intro ha hreq
    rw [hphase, hsucc (hdue.mpr fun _ => hreq), succ, if_pos ha]
  · intro ha hreq
    rw [hphase]
    by_contra hne
    exact hreq (hdue.mp hne ha)

theorem Fresh.of_not_fires (h : Fresh rs s) (hf : s.fires x = false) :
    Fresh (rs ++ [((machine delay).step s x).2]) ((machine delay).step s x).1 where
  quiet k := by
    have hnone : ((machine delay).step s x).2.action = none := by rw [step_of_not_fires hf]
    rw [actionAt_concat_of_none hnone, h.quiet k]
  phase := by
    rw [step_of_not_fires hf]
    by_contra hne
    -- only an accepted request leaves rest, and then no wait is pending
    by_cases hacc : s.accepts x = true
    · have hpoll : x.poll.isSome = true := by rw [(accepts_iff.mp hacc).2]; rfl
      have hfires : s.fires x = true :=
        fires_iff.mpr ⟨hpoll, hne, by rw [h.deadline]; exact Nat.zero_le _⟩
      rw [hf] at hfires
      cases hfires
    · exact hne (by simp only [polledPhase, if_neg hacc, h.phase])
  deadline := by rw [step_of_not_fires hf]; exact h.deadline

/-- **The invariant holds along every run.** -/
theorem tracks (delay : Fin (n + 1) → ℕ) (xs : List Signal) :
    Tracks delay (xs.map Signal.toWindow) ((machine delay).outputs start xs)
      ((machine delay).run start xs) := by
  refine Mealy.history_induction (M := machine delay) (s := start)
    (P := fun xs s rs => Tracks delay (xs.map Signal.toWindow) rs s)
    ⟨rfl, rfl, Or.inl ⟨fun _ => rfl, rfl, rfl⟩⟩ (fun xs x ih => ?_) xs
  obtain ⟨hlen, hnow, hlast⟩ := ih
  rw [List.map_append, List.map_singleton]
  refine ⟨by simp, by simp [hnow], ?_⟩
  by_cases hf : ((machine delay).run start xs).fires x = true
  · exact Or.inr ⟨_, _, waiting_of_fires hlen hnow hf⟩
  · have hf' := Bool.eq_false_iff.mpr hf
    rcases hlast with hfresh | ⟨i, a, hwait⟩
    · exact Or.inl (hfresh.of_not_fires hf')
    · exact Or.inr ⟨i, a, hwait.of_not_fires hlen hf'⟩

/-! ## The first due position -/

section Runs

variable (delay) (xs : List Signal)

theorem actionAt_take_of_lt {j k : ℕ} (h : k < j) : actionAt (rs.take j) k = actionAt rs k := by
  rw [actionAt, List.getElem?_take_of_lt h, actionAt]

theorem acceptsAt_take_iff {j k : ℕ} :
    AcceptsAt (rs.take (j + 1)) k ↔ k ≤ j ∧ AcceptsAt rs k := by
  unfold AcceptsAt
  by_cases hk : k < j + 1
  · rw [List.getElem?_take_of_lt hk]
    exact ⟨fun h => ⟨Nat.le_of_lt_succ hk, h⟩, And.right⟩
  · rw [List.getElem?_eq_none (by rw [List.length_take]; omega)]
    exact ⟨fun h => absurd h (by simp), fun h => absurd (Nat.lt_succ_of_le h.1) hk⟩

theorem setAt_take {ws : List Window} {i j : ℕ} (hij : i < j) :
    setAt (ws.take j) i = setAt ws i := by
  rw [setAt, List.take_take, Nat.min_eq_left hij, setAt]

theorem checkAt_eq {xs : List Signal} {j : ℕ} {x : Signal} (hx : xs[j]? = some x) :
    checkAt (xs.map Signal.toWindow) j =
      elapsed ((xs.take j).map Signal.toWindow) + x.early := by
  rw [checkAt, List.map_take, List.getElem?_map, hx]
  rfl

/-- A position is answered by the state reached before it. -/
theorem outputs_getElem_eq {j : ℕ} {x : Signal} (hx : xs[j]? = some x) :
    ((machine delay).outputs start xs)[j]? =
      some ((machine delay).step ((machine delay).run start (xs.take j)) x).2 := by
  rw [Mealy.outputs_getElem?, hx, Option.map_some]

/-- As long as no further action is performed, the sequencer is waiting. -/
theorem waiting_of_quiet {i j : ℕ} {a : Fin (n + 1)}
    (hact : actionAt ((machine delay).outputs start xs) i = some a) (hij : i < j)
    (hquiet : ∀ k, i < k → k < j → actionAt ((machine delay).outputs start xs) k = none) :
    Waiting delay ((xs.take j).map Signal.toWindow)
      (((machine delay).outputs start xs).take j) i a
      ((machine delay).run start (xs.take j)) := by
  have htracks := tracks delay (xs.take j)
  rw [Mealy.outputs_take] at htracks
  have hact' := hact
  rw [← actionAt_take_of_lt hij] at hact'
  rcases htracks.last with hfresh | ⟨i', a', hwait⟩
  · rw [hfresh.quiet i] at hact'
    cases hact'
  · rcases Nat.lt_trichotomy i i' with hlt | rfl | hgt
    · -- a later action contradicts the quiet stretch
      have hi' := lt_length_of_actionAt hwait.acts
      rw [List.length_take] at hi'
      have hacts := hwait.acts
      rw [actionAt_take_of_lt (by omega), hquiet i' hlt (by omega)] at hacts
      cases hacts
    · have haa := hwait.acts.symm.trans hact'
      rw [Option.some.injEq] at haa
      rwa [← haa]
    · -- and an earlier one would make the action at `i` a later one
      rw [hwait.quiet i hgt] at hact'
      cases hact'

/-- After a quiet stretch, an action is performed exactly at a due position, and it is the
next one. -/
theorem action_iff_due {i j : ℕ} {a : Fin (n + 1)}
    (hact : actionAt ((machine delay).outputs start xs) i = some a) (hij : i < j)
    (hquiet : ∀ k, i < k → k < j → actionAt ((machine delay).outputs start xs) k = none) :
    ((actionAt ((machine delay).outputs start xs) j).isSome = true ↔
      Due delay xs ((machine delay).outputs start xs) i a j) ∧
    ∀ b, actionAt ((machine delay).outputs start xs) j = some b → b = succ a := by
  by_cases hj : j < xs.length
  case neg =>
    -- past the end nothing is performed and nothing is polled
    have hnone : actionAt ((machine delay).outputs start xs) j = none :=
      actionAt_of_length_le (by rw [Mealy.outputs_length]; omega)
    rw [hnone]
    refine ⟨⟨fun h => absurd h (by simp), fun hdue => ?_⟩, fun b hb => by cases hb⟩
    obtain ⟨x, hx, -⟩ := hdue.polled
    rw [List.getElem?_eq_none (Nat.le_of_not_lt hj)] at hx
    cases hx
  case pos =>
    have hx : xs[j]? = some xs[j] := List.getElem?_eq_getElem hj
    have hwait := waiting_of_quiet delay xs hact hij hquiet
    have hnow := (tracks delay (xs.take j)).now
    have hout := outputs_getElem_eq delay xs hx
    -- the poll at `j` is made in state `s`, after the first `j` responses
    set s := (machine delay).run start (xs.take j) with hs
    set rs := (machine delay).outputs start xs with hrs
    have hi : i < (rs.take j).length := lt_length_of_actionAt hwait.acts
    have htake : rs.take j ++ [((machine delay).step s xs[j]).2] = rs.take (j + 1) := by
      rw [List.take_add_one, hout, Option.toList_some]
    obtain ⟨hsucc, hdue⟩ := hwait.polledPhase_spec hi
      (r := ((machine delay).step s xs[j]).2) step_accepted
    rw [htake] at hdue
    have hreq : (∃ k, i < k ∧ AcceptsAt (rs.take (j + 1)) k) ↔
        ∃ k, i < k ∧ k ≤ j ∧ AcceptsAt rs k := by
      simp only [acceptsAt_take_iff]
    have haction : actionAt rs j = ((machine delay).step s xs[j]).2.action := by
      rw [actionAt, hout, Option.bind_some]
    have htime : s.deadline ≤ s.now + xs[j].early ↔
        setAt (xs.map Signal.toWindow) i + delay a ≤ checkAt (xs.map Signal.toWindow) j := by
      rw [hwait.deadline, List.map_take, setAt_take hij, hnow, checkAt_eq hx]
    refine ⟨⟨fun hsome => ?_, fun h => ?_⟩, fun b hb => ?_⟩
    · obtain ⟨b, hb⟩ := Option.isSome_iff_exists.mp hsome
      rw [haction, step_action, fires_iff] at hb
      obtain ⟨⟨hpoll, hne, hle⟩, -⟩ := hb
      exact ⟨hij, ⟨xs[j], hx, hpoll⟩, htime.mp hle, fun ha => hreq.mp (hdue.mp hne ha)⟩
    · obtain ⟨x, hx', hpoll⟩ := h.polled
      rw [hx, Option.some.injEq] at hx'
      have hf : s.fires xs[j] = true :=
        fires_iff.mpr ⟨by rw [hx']; exact hpoll,
          hdue.mpr fun ha => hreq.mpr (h.requested ha), htime.mpr h.waited⟩
      rw [haction, (step_action _).mpr ⟨hf, rfl⟩, Option.isSome_some]
    · rw [haction, step_action, fires_iff] at hb
      rw [← hb.2, hsucc hb.1.2.1]

/-- **Timing**: the next action is performed at the first due position. -/
theorem next_iff_isLeast_due {i : ℕ} {a : Fin (n + 1)}
    (hact : actionAt ((machine delay).outputs start xs) i = some a) (j : ℕ) :
    Next (actionAt ((machine delay).outputs start xs)) i j ↔
      IsLeast {j | Due delay xs ((machine delay).outputs start xs) i a j} j := by
  constructor
  · rintro ⟨hij, hsome, hquiet⟩
    refine ⟨(action_iff_due delay xs hact hij hquiet).1.mp hsome, fun k hk => ?_⟩
    -- at an earlier due position the action would have been performed
    by_contra hkj
    have hsome' := (action_iff_due delay xs hact hk.after
      (fun l hl hlk => hquiet l hl (by omega))).1.mpr hk
    rw [hquiet k hk.after (by omega)] at hsome'
    cases hsome'
  · rintro ⟨hdue, hleast⟩
    -- an earlier action would have been due earlier
    have hquiet : ∀ k, i < k → k < j →
        actionAt ((machine delay).outputs start xs) k = none := by
      intro k
      induction k using Nat.strong_induction_on with
      | _ k ih =>
        intro hik hkj
        by_contra hne
        have hk := (action_iff_due delay xs hact hik
          (fun l hl hlk => ih l hlk hl (by omega))).1.mp (Option.isSome_iff_ne_none.mpr hne)
        have := hleast hk
        omega
    exact ⟨hdue.after, (action_iff_due delay xs hact hdue.after hquiet).1.mpr hdue, hquiet⟩

/-- The next action is the next one of the cycle. -/
theorem succ_of_next {i j : ℕ} {a : Fin (n + 1)}
    (hact : actionAt ((machine delay).outputs start xs) i = some a)
    (h : Next (actionAt ((machine delay).outputs start xs)) i j) :
    actionAt ((machine delay).outputs start xs) j = some (succ a) := by
  obtain ⟨hij, hsome, hquiet⟩ := h
  obtain ⟨b, hb⟩ := Option.isSome_iff_exists.mp hsome
  rw [hb, (action_iff_due delay xs hact hij hquiet).2 b hb]

/-- Every action is the next one after another, or the very first; that one is the first
of the cycle and performed when its request is accepted. -/
theorem first_or_next {j : ℕ} {b : Fin (n + 1)}
    (hact : actionAt ((machine delay).outputs start xs) j = some b) :
    (∃ i, Next (actionAt ((machine delay).outputs start xs)) i j ∧
      (actionAt ((machine delay).outputs start xs) i).isSome = true) ∨
    ((∀ k < j, actionAt ((machine delay).outputs start xs) k = none) ∧ b = 1 ∧
      AcceptsAt ((machine delay).outputs start xs) j) := by
  have hj : j < xs.length := by
    have := lt_length_of_actionAt hact
    rwa [Mealy.outputs_length] at this
  have htracks := tracks delay (xs.take j)
  rw [Mealy.outputs_take] at htracks
  have hout := outputs_getElem_eq delay xs (List.getElem?_eq_getElem hj)
  rcases htracks.last with hfresh | ⟨i, a, hwait⟩
  -- at rest, only the poll's own request can have made an action due
  · refine Or.inr ⟨fun k hk => by rw [← actionAt_take_of_lt hk, hfresh.quiet k], ?_⟩
    rw [actionAt, hout, Option.bind_some, step_action, fires_iff] at hact
    obtain ⟨⟨-, hne, -⟩, hb⟩ := hact
    have hacc : ((machine delay).run start (xs.take j)).accepts xs[j] = true := by
      by_contra hacc
      exact hne (by rw [polledPhase, if_neg hacc, hfresh.phase])
    refine ⟨?_, ?_⟩
    · rw [← hb, polledPhase, if_pos hacc, hfresh.phase, Fin.zero_add]
    · rw [AcceptsAt, hout, Option.map_some, step_accepted, hacc]
  · have hi := lt_length_of_actionAt hwait.acts
    rw [List.length_take] at hi
    have hij : i < j := by omega
    refine Or.inl ⟨i, ⟨hij, by rw [hact, Option.isSome_some], fun k hik hkj => ?_⟩, ?_⟩
    · rw [← actionAt_take_of_lt hkj, hwait.quiet k hik]
    · rw [← actionAt_take_of_lt hij, hwait.acts, Option.isSome_some]

/-- After an action its wait passes before anything else is performed. -/
theorem waited_of_lt {i j : ℕ} {a b : Fin (n + 1)}
    (hi : actionAt ((machine delay).outputs start xs) i = some a)
    (hj : actionAt ((machine delay).outputs start xs) j = some b) (hij : i < j) :
    setAt (xs.map Signal.toWindow) i + delay a ≤ checkAt (xs.map Signal.toWindow) j := by
  -- back from `j` to the action before it, which is the one at `i` or a later one
  induction j using Nat.strongRecOn generalizing b with
  | ind j ih =>
    rcases first_or_next delay xs hj with ⟨k, ⟨hkj, hsome, hquiet⟩, hk⟩ | ⟨hquiet, -, -⟩
    · rcases Nat.lt_trichotomy i k with hlt | rfl | hgt
      · obtain ⟨c, hc⟩ := Option.isSome_iff_exists.mp hk
        exact Nat.le_trans (ih k hkj hc hlt) (checkAt_mono (Nat.le_of_lt hkj))
      · exact ((action_iff_due delay xs hi hkj hquiet).1.mp hsome).waited
      · rw [hquiet i hgt hij] at hi
        cases hi
    · rw [hquiet i hij] at hi
      cases hi

/-- As long as nothing has been performed, the sequencer rests as it did at the start. -/
theorem fresh_of_quiet {j : ℕ}
    (hquiet : ∀ k < j, actionAt ((machine delay).outputs start xs) k = none) :
    Fresh (((machine delay).outputs start xs).take j) ((machine delay).run start (xs.take j)) := by
  have htracks := tracks delay (xs.take j)
  rw [Mealy.outputs_take] at htracks
  rcases htracks.last with hfresh | ⟨i, a, hwait⟩
  · exact hfresh
  · have hi := lt_length_of_actionAt hwait.acts
    rw [List.length_take] at hi
    have hacts := hwait.acts
    rw [actionAt_take_of_lt (by omega), hquiet i (by omega)] at hacts
    cases hacts

/-- The first request of all is answered at once: no wait is pending. -/
theorem action_of_first_request {j : ℕ} {x : Signal} (hx : xs[j]? = some x)
    (hreq : x.poll = some true) (hone : (1 : Fin (n + 1)) ≠ 0)
    (hquiet : ∀ k < j, actionAt ((machine delay).outputs start xs) k = none) :
    actionAt ((machine delay).outputs start xs) j = some 1 := by
  have hfresh := fresh_of_quiet delay xs hquiet
  have hacc := accepts_iff.mpr ⟨hfresh.phase, hreq⟩
  have hphase : ((machine delay).run start (xs.take j)).polledPhase x = 1 := by
    rw [polledPhase, if_pos hacc, hfresh.phase, Fin.zero_add]
  rw [actionAt, outputs_getElem_eq delay xs hx, Option.bind_some, step_action, fires_iff, hphase,
    hfresh.deadline, hreq]
  exact ⟨⟨rfl, hone, Nat.zero_le _⟩, rfl⟩

/-- Whenever something is performed, the first action of all has been. -/
theorem exists_first_of_action {j : ℕ} {b : Fin (n + 1)}
    (hact : actionAt ((machine delay).outputs start xs) j = some b) :
    ∃ i ≤ j, actionAt ((machine delay).outputs start xs) i = some 1 ∧
      ∀ k < i, actionAt ((machine delay).outputs start xs) k = none := by
  -- back from every action to the one before it
  induction j using Nat.strongRecOn generalizing b with
  | ind j ih =>
    rcases first_or_next delay xs hact with ⟨i, ⟨hij, -⟩, hsome⟩ | ⟨hquiet, rfl, -⟩
    · obtain ⟨a, ha⟩ := Option.isSome_iff_exists.mp hsome
      obtain ⟨i₀, hi₀, hfirst⟩ := ih i hij ha
      exact ⟨i₀, Nat.le_trans hi₀ (Nat.le_of_lt hij), hfirst⟩
    · exact ⟨j, Nat.le_refl j, hact, hquiet⟩

/-- No request comes before the first action. -/
theorem exists_first_of_request {j : ℕ} {x : Signal} (hx : xs[j]? = some x)
    (hreq : x.poll = some true) (hone : (1 : Fin (n + 1)) ≠ 0) :
    ∃ i ≤ j, actionAt ((machine delay).outputs start xs) i = some 1 ∧
      ∀ k < i, actionAt ((machine delay).outputs start xs) k = none := by
  by_cases hquiet : ∀ k < j, actionAt ((machine delay).outputs start xs) k = none
  · exact ⟨j, Nat.le_refl j, action_of_first_request delay xs hx hreq hone hquiet, hquiet⟩
  · push Not at hquiet
    obtain ⟨k, hkj, hk⟩ := hquiet
    obtain ⟨b, hb⟩ := Option.ne_none_iff_exists'.mp hk
    obtain ⟨i, hik, hfirst⟩ := exists_first_of_action delay xs hb
    exact ⟨i, Nat.le_trans hik (Nat.le_of_lt hkj), hfirst⟩

end Runs

end Sequencer

end LoccFirmware.Automata
