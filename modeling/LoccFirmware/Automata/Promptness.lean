import LoccFirmware.Automata.EventCounts
import LoccFirmware.Automata.SequencerTiming
import Mathlib.Data.Nat.Find

/-!
# Sequencers: Promptness

A sequencer that is polled at least every `gap` ticks is late by `gap` ticks at most: each
action of a cycle comes within its wait and two gaps of the one before it, one gap until
the wait starts and one until the poll after it, and a request that is accepted is
answered within the wait that may still be pending and one gap.

## Main results

- `Sequencer.exists_next_prompt`: the next action of a cycle comes, and comes in time
- `Sequencer.exists_first_prompt`: so does the first one after a request
-/

namespace LoccFirmware.Automata

/-! ## Polls that are never far apart -/

/-- Two polls with none between them look at the clock at most `gap` ticks apart. -/
def Within (ws : List Window) (polled : ℕ → Prop) (gap : ℕ) : Prop :=
  ∀ i k, polled i → polled k → i < k → (∀ j, i < j → j < k → ¬ polled j) →
    checkAt ws k ≤ checkAt ws i + gap

section Polls

variable {ws : List Window} {polled : ℕ → Prop} {gap i k : ℕ}

/-- If it is polled at or after `time` at all, the first such poll is a gap late at
    most. -/
theorem Within.exists_isLeast (h : Within ws polled gap) (time : ℕ) (hi : polled i)
    (hafter : checkAt ws i ≤ time) (hk : polled k) (hik : i < k) (htime : time ≤ checkAt ws k) :
    ∃ j, IsLeast {j | i < j ∧ polled j ∧ time ≤ checkAt ws j} j ∧ j ≤ k ∧
      checkAt ws j ≤ time + gap := by
  classical
  have hexists : ∃ j, i < j ∧ polled j ∧ time ≤ checkAt ws j := ⟨k, hik, hk, htime⟩
  have hspec := Nat.find_spec hexists
  have hleast : IsLeast {j | i < j ∧ polled j ∧ time ≤ checkAt ws j} (Nat.find hexists) :=
    ⟨hspec, fun j hj => Nat.find_min' hexists hj⟩
  refine ⟨Nat.find hexists, hleast, Nat.find_min' hexists ⟨hik, hk, htime⟩, ?_⟩
  -- the poll before it came too early
  obtain ⟨s, hs, hpoll, hnone⟩ := exists_last_before ⟨i, hspec.1, hi⟩
  have hearly : checkAt ws s ≤ time := by
    by_contra hlate
    have his : i < s := by
      by_contra hle
      exact hlate (Nat.le_trans (checkAt_mono (Nat.le_of_not_lt hle)) hafter)
    exact Nat.find_min hexists hs ⟨his, hpoll, Nat.le_of_not_le hlate⟩
  exact Nat.le_trans (h s _ hpoll hspec.2.1 hs hnone) (Nat.add_le_add_right hearly gap)

/-- A position is over a gap after its poll, if another poll follows. -/
theorem Within.setAt_le (h : Within ws polled gap) (hi : polled i) (hk : polled k) (hik : i < k) :
    setAt ws i ≤ checkAt ws i + gap := by
  obtain ⟨j, ⟨⟨hij, -, -⟩, -⟩, -, hle⟩ :=
    h.exists_isLeast _ hi (Nat.le_refl _) hk hik (checkAt_mono (Nat.le_of_lt hik))
  exact Nat.le_trans (setAt_le_checkAt hij) hle

/-- Polls at every position are as far apart as the ticks after one and before the next. -/
theorem within_of_forall {before during : ℕ} (hall : ∀ j < ws.length, polled j)
    (hend : ∀ j, polled j → j < ws.length)
    (h : ∀ w ∈ ws, w.early ≤ before ∧ w.late ≤ during) : Within ws polled (during + before) := by
  intro i k hi hk hik hnone
  obtain rfl : k = i + 1 := by
    by_contra hne
    have hlt := hend k hk
    exact hnone (i + 1) (by omega) (by omega) (hall (i + 1) (by omega))
  have hget := List.getElem?_eq_getElem (hend i hi)
  have hget' := List.getElem?_eq_getElem (hend (i + 1) hk)
  have hlate := (h _ (List.mem_of_getElem? hget)).2
  have hearly := (h _ (List.mem_of_getElem? hget')).1
  rw [checkAt, checkAt, elapsed_take_succ, ticksAt, hget, hget']
  simp only [Option.map_some, Option.getD_some]
  omega

end Polls

namespace Sequencer

/-- There is a poll at position `j`. -/
def PolledAt (xs : List Signal) (j : ℕ) : Prop :=
  ∃ x, xs[j]? = some x ∧ x.poll.isSome = true

variable {n : ℕ} (delay : Fin (n + 1) → ℕ) (xs : List Signal) {gap i k : ℕ} {a : Fin (n + 1)}

/-! ## Where actions are performed and requests accepted -/

theorem polledAt_of_action
    (hact : actionAt ((machine delay).outputs start xs) i = some a) : PolledAt xs i := by
  have hi : i < xs.length := by
    have := lt_length_of_actionAt hact
    rwa [Mealy.outputs_length] at this
  have hx := List.getElem?_eq_getElem hi
  rw [actionAt, outputs_getElem_eq delay xs hx, Option.bind_some, step_action, fires_iff] at hact
  exact ⟨xs[i], hx, hact.1.1⟩

/-- A request is accepted at rest, in a poll. -/
theorem rest_of_acceptsAt (hacc : AcceptsAt ((machine delay).outputs start xs) i) :
    ∃ x, xs[i]? = some x ∧ x.poll = some true ∧
      ((machine delay).run start (xs.take i)).phase = 0 := by
  obtain ⟨r, hr, haccepted⟩ := Option.map_eq_some_iff.mp hacc
  have hi := (List.getElem?_eq_some_iff.mp hr).1
  rw [Mealy.outputs_length] at hi
  have hx := List.getElem?_eq_getElem hi
  rw [outputs_getElem_eq delay xs hx] at hr
  rw [← Option.some.inj hr, step_accepted, accepts_iff] at haccepted
  exact ⟨xs[i], hx, haccepted.2, haccepted.1⟩

/-- The action performed when a request is accepted is the first one. -/
theorem action_of_acceptsAt (hacc : AcceptsAt ((machine delay).outputs start xs) i)
    (hact : actionAt ((machine delay).outputs start xs) i = some a) : a = 1 := by
  obtain ⟨x, hx, hpoll, hrest⟩ := rest_of_acceptsAt delay xs hacc
  rw [actionAt, outputs_getElem_eq delay xs hx, Option.bind_some, step_action] at hact
  rw [← hact.2, polledPhase, if_pos (accepts_iff.mpr ⟨hrest, hpoll⟩), hrest, Fin.zero_add]

/-- The action before an accepted request completed a cycle. -/
theorem completed_of_acceptsAt (hacc : AcceptsAt ((machine delay).outputs start xs) k)
    (hact : actionAt ((machine delay).outputs start xs) i = some a) (hik : i < k)
    (hquiet : ∀ j, i < j → j < k → actionAt ((machine delay).outputs start xs) j = none) :
    a + 1 = 0 := by
  obtain ⟨x, hx, hpoll, hrest⟩ := rest_of_acceptsAt delay xs hacc
  by_contra hne
  exact hne ((waiting_of_quiet delay xs hact hik hquiet).busy hne ▸ hrest)

/-! ## Actions in time -/

variable {delay xs}

/-- **Within a cycle** the next action is performed, once its wait has passed, and by the
    time a poll may be late. -/
theorem exists_next_prompt (h : Within (xs.map Signal.toWindow) (PolledAt xs) gap)
    (hact : actionAt ((machine delay).outputs start xs) i = some a) (hne : a + 1 ≠ 0)
    (hk : PolledAt xs k) (hik : i < k)
    (hwait : checkAt (xs.map Signal.toWindow) i + delay a + gap ≤
      checkAt (xs.map Signal.toWindow) k) :
    ∃ j, Next (actionAt ((machine delay).outputs start xs)) i j ∧ j ≤ k ∧
      checkAt (xs.map Signal.toWindow) i + delay a ≤ checkAt (xs.map Signal.toWindow) j ∧
      checkAt (xs.map Signal.toWindow) j ≤
        checkAt (xs.map Signal.toWindow) i + delay a + 2 * gap := by
  have hi := polledAt_of_action delay xs hact
  have hset := h.setAt_le hi hk hik
  have hcheck := checkAt_le_setAt (xs.map Signal.toWindow) i
  obtain ⟨j, hleast, hjk, hlate⟩ := h.exists_isLeast (setAt _ i + delay a) hi
    (Nat.le_add_right_of_le hcheck) hk hik (by omega)
  have hdue : IsLeast {j | Due delay xs ((machine delay).outputs start xs) i a j} j :=
    ⟨⟨hleast.1.1, hleast.1.2.1, hleast.1.2.2, fun hzero => absurd hzero hne⟩,
      fun l hl => hleast.2 ⟨hl.after, hl.polled, hl.waited⟩⟩
  have hwaited := hleast.1.2.2
  exact ⟨j, (next_iff_isLeast_due delay xs hact j).mpr hdue, hjk, by omega, by omega⟩

/-- **An accepted request** is answered by the first action, at once or, if the wait of
    the last cycle is still pending, when it is over and by the time a poll may be late. -/
theorem exists_first_prompt (h : Within (xs.map Signal.toWindow) (PolledAt xs) gap)
    {wait : ℕ} (hwait : ∀ a : Fin (n + 1), a + 1 = 0 → delay a ≤ wait)
    (hone : (1 : Fin (n + 1)) ≠ 0) (hacc : AcceptsAt ((machine delay).outputs start xs) i)
    (hk : PolledAt xs k) (hik : i < k)
    (htime : checkAt (xs.map Signal.toWindow) i + wait ≤ checkAt (xs.map Signal.toWindow) k) :
    ∃ j, i ≤ j ∧ j ≤ k ∧ actionAt ((machine delay).outputs start xs) j = some 1 ∧
      (∀ l, i ≤ l → l < j → actionAt ((machine delay).outputs start xs) l = none) ∧
      checkAt (xs.map Signal.toWindow) j ≤ checkAt (xs.map Signal.toWindow) i + wait + gap := by
  obtain ⟨x, hx, hpoll, -⟩ := rest_of_acceptsAt delay xs hacc
  have hpolled : PolledAt xs i := ⟨x, hx, by rw [hpoll]; rfl⟩
  cases hnow : actionAt ((machine delay).outputs start xs) i with
  | some a =>
    refine ⟨i, Nat.le_refl i, Nat.le_of_lt hik, ?_, fun l hl hli => by omega, by omega⟩
    rw [hnow, action_of_acceptsAt delay xs hacc hnow]
  | none =>
    -- something has been performed before, or the request would have been answered
    by_cases hbefore : ∃ s, s < i ∧ actionAt ((machine delay).outputs start xs) s ≠ none
    case neg =>
      push Not at hbefore
      rw [action_of_first_request delay xs hx hpoll hone hbefore] at hnow
      cases hnow
    case pos =>
      obtain ⟨s, hsi, hs, hquiet⟩ := exists_last_before hbefore
      simp only [not_not] at hquiet
      obtain ⟨a, ha⟩ := Option.ne_none_iff_exists'.mp hs
      have hzero := completed_of_acceptsAt delay xs hacc ha hsi hquiet
      have hset : setAt (xs.map Signal.toWindow) s ≤ checkAt (xs.map Signal.toWindow) i :=
        setAt_le_checkAt hsi
      have hdelay := hwait a hzero
      -- its wait is still pending, or the request would have been answered
      have hpending : checkAt (xs.map Signal.toWindow) i <
          setAt (xs.map Signal.toWindow) s + delay a := by
        by_contra hover
        have hdue : Due delay xs ((machine delay).outputs start xs) s a i :=
          ⟨hsi, hpolled, Nat.le_of_not_lt hover, fun _ => ⟨i, hsi, Nat.le_refl i, hacc⟩⟩
        have hsome := (action_iff_due delay xs ha hsi hquiet).1.mpr hdue
        rw [hnow] at hsome
        cases hsome
      obtain ⟨j, hleast, hjk, hlate⟩ := h.exists_isLeast (setAt _ s + delay a) hpolled
        (Nat.le_of_lt hpending) hk hik (by omega)
      obtain ⟨hij, hjpolled, hjwaited⟩ := hleast.1
      have hdue : IsLeast {j | Due delay xs ((machine delay).outputs start xs) s a j} j := by
        refine ⟨⟨by omega, hjpolled, hjwaited, fun _ => ⟨i, hsi, Nat.le_of_lt hij, hacc⟩⟩,
          fun l hl => hleast.2 ⟨?_, hl.polled, hl.waited⟩⟩
        by_contra hli
        have hmono : checkAt (xs.map Signal.toWindow) l ≤ checkAt (xs.map Signal.toWindow) i :=
          checkAt_mono (Nat.le_of_not_lt hli)
        have hwaited := hl.waited
        omega
      have hnext := (next_iff_isLeast_due delay xs ha j).mpr hdue
      refine ⟨j, Nat.le_of_lt hij, hjk, ?_, fun l hil hlj => hnext.2.2 l (by omega) hlj, by omega⟩
      rw [succ_of_next delay xs ha hnext, succ, if_pos hzero]

end Sequencer

end LoccFirmware.Automata
