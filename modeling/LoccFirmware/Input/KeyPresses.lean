import LoccFirmware.Input.KeyReports

/-!
# Key Presses with Bounce

A key that is pressed bounces, is held, bounces again when it is released, and rests.
The lockout of `keypad_scan` is started by a press only, so it swallows the bounce of the
press, but by the time of the release it is long over: a contact that opens and closes
again while it is released is reported as a second press.

This file plays presses of one key, with all others released, from any state in which the
cell of the key is 0, and says which of them are reported exactly once.
-/

namespace LoccFirmware.Input

open LoccFirmware.Automata

/-! ## Presses -/

/-- One press of a key, as samples of its contact: a pressed one, bounce, steadily pressed
ones, bounce again, and steadily released ones. -/
structure PressEpisode where
  bounce : List Bool
  held : ℕ
  release : List Bool
  rest : ℕ
  bounce_length : bounce.length ≤ 62
  held_ge : 64 ≤ held
  release_length : release.length ≤ 63
  rest_ge : 65 ≤ rest

/-- The samples of a press, in order. -/
def PressEpisode.samples (e : PressEpisode) : List Bool :=
  true :: (e.bounce ++ List.replicate e.held true ++ e.release ++ List.replicate e.rest false)

/-- The samples of key `(r, i)` in calls of which the first one scans `row`. -/
def keySamplesFrom (row r i : ℕ) (calls : List UInt8) : List Bool :=
  ((calls.zipIdx row).filter fun xt => xt.2 % 4 = r).map fun xt => keyPressed xt.1 i

/-- In calls of which the first one scans `row`, no key but `(r, i)` is sampled pressed. -/
def OthersReleased (row r i : ℕ) (calls : List UInt8) : Prop :=
  ∀ t x j, calls[t]? = some x → j < 4 → ¬ ((row + t) % 4 = r ∧ j = i) → keyPressed x j = false

/-- The calls made during the first `n` of a list of presses. -/
def callsBefore (presses : List (PressEpisode × List UInt8)) (n : ℕ) : List UInt8 :=
  (presses.take n).flatMap Prod.snd

/-- Presses of key `(r, i)`, each with the calls made during it, from a state in which the
cell of the key is 0. -/
structure KeyPlay (r i : Fin 4) where
  start : Keypad
  row : ℕ
  atRow : start.AtRow row
  released : start.debouncing r i = 0
  presses : List (PressEpisode × List UInt8)
  played : ∀ n e calls, presses[n]? = some (e, calls) →
    keySamplesFrom (row + (callsBefore presses n).length) r i calls = e.samples
  others : ∀ n e calls, presses[n]? = some (e, calls) →
    OthersReleased (row + (callsBefore presses n).length) r i calls

/-- In the calls of every press the key's character is returned exactly once. -/
def OneReportPerPress {r i : Fin 4} (p : KeyPlay r i) : Prop :=
  ∀ n e calls, p.presses[n]? = some (e, calls) →
    (keypad.outputs (keypad.run p.start (callsBefore p.presses n)) calls).count
      (lookupAt (r * 4 + i)) = 1

/-! ## A key alone -/

theorem keySamplesFrom_cons (row r i : ℕ) (x : UInt8) (calls : List UInt8) :
    keySamplesFrom row r i (x :: calls) =
      (if row % 4 = r then [keyPressed x i] else []) ++ keySamplesFrom (row + 1) r i calls := by
  unfold keySamplesFrom
  rw [List.zipIdx_cons, List.filter_cons]
  by_cases hr : row % 4 = r <;> simp [hr]

theorem OthersReleased.head {row r i : ℕ} {x : UInt8} {calls : List UInt8}
    (h : OthersReleased row r i (x :: calls)) {j : ℕ} (hj : j < 4)
    (hne : ¬ (row % 4 = r ∧ j = i)) : keyPressed x j = false :=
  h 0 x j rfl hj hne

theorem OthersReleased.tail {row r i : ℕ} {x : UInt8} {calls : List UInt8}
    (h : OthersReleased row r i (x :: calls)) : OthersReleased (row + 1) r i calls := by
  intro t y j hy hj hne
  refine h (t + 1) y j hy hj ?_
  rwa [show row + (t + 1) = row + 1 + t by omega]

section SoleKey

variable {k : Keypad} {row r i : ℕ} {x : UInt8}

/-- One scan with at most the one key pressed. -/
theorem keypadScan_sole (hk : k.AtRow (row % 4)) (hi : i < 4)
    (hothers : ∀ j < 4, ¬ (row % 4 = r ∧ j = i) → keyPressed x j = false) :
    (keypadScan x k).2 =
        (if row % 4 = r ∧ (debounce 0x40 (k.debouncing r i).toNat (keyPressed x i)).2 = true
          then lookupAt (r * 4 + i) else 0) ∧
      ((keypadScan x k).1.debouncing r i).toNat =
        if row % 4 = r then (debounce 0x40 (k.debouncing r i).toNat (keyPressed x i)).1
        else (k.debouncing r i).toNat := by
  obtain ⟨hcells, hmerged⟩ := keypadScan_spec hk x
  simp only [debounce_reports_iff, ← eq_zero_iff_toNat]
  constructor
  · rcases hmerged with ⟨j, hj, ⟨-, hzero, hpressed⟩, -, hret⟩ | ⟨hnone, hret⟩
    · -- a reported key is pressed, so it is this one
      have hkey : row % 4 = r ∧ j = i := by
        by_contra hne
        rw [hothers j hj hne] at hpressed
        cases hpressed
      obtain ⟨hr, rfl⟩ := hkey
      rw [hr] at hzero hret
      rw [hret, if_pos ⟨hr, hzero, hpressed⟩]
    · rw [hret, if_neg]
      rintro ⟨hr, hzero, hpressed⟩
      exact hnone i hi ⟨hi, by rw [hr]; exact hzero, hpressed⟩
  · rw [hcells r i hi]
    by_cases hr : row % 4 = r
    · rw [if_pos hr.symm, if_pos hr, hr, debouncedCell_toNat]
    · rw [if_neg (fun h => hr h.symm), if_neg hr]

/-- **A key alone**: its character is returned as often as its debouncer reports, and its
    cell is the state of the debouncer. -/
theorem sole_key (hk : k.AtRow (row % 4)) (hr : r < 4) (hi : i < 4) {calls : List UInt8}
    (hothers : OthersReleased row r i calls) :
    (keypad.outputs k calls).count (lookupAt (r * 4 + i)) =
        ((debouncer 0x40).outputs (k.debouncing r i).toNat
          (keySamplesFrom row r i calls)).count true ∧
      ((keypad.run k calls).debouncing r i).toNat =
        (debouncer 0x40).run (k.debouncing r i).toNat (keySamplesFrom row r i calls) ∧
      (keypad.run k calls).AtRow ((row + calls.length) % 4) := by
  -- along the calls, the cell of the key and the state of its debouncer stay the same
  induction calls generalizing k row with
  | nil => exact ⟨rfl, rfl, hk⟩
  | cons x calls ih =>
    obtain ⟨hret, hcell⟩ := keypadScan_sole (r := r) hk hi fun j hj hne => hothers.head hj hne
    have hrow : (keypadScan x k).1.AtRow ((row + 1) % 4) := by
      have hstep := hk.step x
      rwa [Nat.mod_add_mod] at hstep
    obtain ⟨hcount, hrun, hat⟩ := ih hrow hothers.tail
    have hne : lookupAt (r * 4 + i) ≠ 0 := lookupAt_ne_zero _ (by omega)
    rw [keySamplesFrom_cons, Mealy.run_cons, Mealy.outputs_cons, List.length_cons,
      show row + (calls.length + 1) = row + 1 + calls.length by omega]
    refine ⟨?_, ?_, hat⟩
    · rw [List.count_cons]
      show (keypad.outputs (keypadScan x k).1 calls).count _ +
        (if ((keypadScan x k).2 == lookupAt (r * 4 + i)) = true then 1 else 0) = _
      rw [hcount, hcell, hret]
      -- a call of the key's row feeds its debouncer, any other call does not
      by_cases hr : row % 4 = r
      · rw [if_pos hr, if_pos hr, List.singleton_append, Mealy.outputs_cons, debouncer_step,
          List.count_cons]
        cases (debounce 0x40 (k.debouncing r i).toNat (keyPressed x i)).2 with
        | true => simp [hr]
        | false => simp [hne.symm]
      · rw [if_neg hr, if_neg hr, List.nil_append]
        simp [hr, hne.symm]
    · show ((keypad.run (keypadScan x k).1 calls).debouncing r i).toNat = _
      rw [hrun, hcell]
      by_cases hr : row % 4 = r
      · rw [if_pos hr, if_pos hr, List.singleton_append, Mealy.run_cons, debouncer_step]
      · rw [if_neg hr, if_neg hr, List.nil_append]

end SoleKey

/-! ## One press -/

/-- What the debouncer of the key makes of a press. -/
theorem PressEpisode.debounced (e : PressEpisode) :
    (debouncer 0x40).run 0 e.samples = 0 ∧
      ((debouncer 0x40).outputs 0 e.samples).count true =
        1 + if Chatters e.release then 1 else 0 := by
  have hbounce := e.bounce_length
  have hheld := e.held_ge
  have hrelease := e.release_length
  have hrest := e.rest_ge
  exact run_press_release e.bounce e.release (by omega) (by omega) (by omega) (by omega)

namespace KeyPlay

variable {r i : Fin 4} (p : KeyPlay r i) {n : ℕ} {e : PressEpisode} {calls : List UInt8}

theorem callsBefore_succ {presses : List (PressEpisode × List UInt8)}
    (hn : presses[n]? = some (e, calls)) :
    callsBefore presses (n + 1) = callsBefore presses n ++ calls := by
  rw [callsBefore, List.take_add_one, hn, Option.toList_some, List.flatMap_append,
    List.flatMap_singleton, callsBefore]

/-- Before every press the cell of the key is 0 again. -/
theorem before_press (hn : n ≤ p.presses.length) :
    (keypad.run p.start (callsBefore p.presses n)).AtRow
        ((p.row + (callsBefore p.presses n).length) % 4) ∧
      (keypad.run p.start (callsBefore p.presses n)).debouncing r i = 0 := by
  induction n with
  | zero =>
    refine ⟨?_, p.released⟩
    show p.start.AtRow ((p.row + 0) % 4)
    rw [Nat.add_zero, Nat.mod_eq_of_lt p.atRow.lt]
    exact p.atRow
  | succ n ih =>
    -- the press before has ended in rest
    obtain ⟨hat, hcell⟩ := ih (by omega)
    have hpress : p.presses[n]? = some p.presses[n] := List.getElem?_eq_getElem (by omega)
    obtain ⟨-, hrun, hat'⟩ := sole_key hat r.isLt i.isLt (p.others n _ _ hpress)
    rw [callsBefore_succ hpress, Mealy.run_append, List.length_append, ← Nat.add_assoc]
    refine ⟨hat', ?_⟩
    rw [eq_zero_iff_toNat, hrun, p.played n _ _ hpress, hcell]
    exact (PressEpisode.debounced _).1

/-- The reports of one press: one, and one more if its release chatters. -/
theorem count_press (hn : p.presses[n]? = some (e, calls)) :
    (keypad.outputs (keypad.run p.start (callsBefore p.presses n)) calls).count
      (lookupAt (r * 4 + i)) = 1 + if Chatters e.release then 1 else 0 := by
  have hlt : n < p.presses.length := (List.getElem?_eq_some_iff.mp hn).1
  obtain ⟨hat, hcell⟩ := p.before_press (Nat.le_of_lt hlt)
  obtain ⟨hcount, -, -⟩ := sole_key hat r.isLt i.isLt (p.others n e calls hn)
  rw [hcount, p.played n e calls hn, hcell]
  exact e.debounced.2

end KeyPlay

/-- **One report per press, exactly**: however a key is pressed, again and again, it is
    reported exactly once per press if and only if in no press the contact opens and
    closes again while it is released. -/
theorem oneReportPerPress_iff {r i : Fin 4} (p : KeyPlay r i) :
    OneReportPerPress p ↔ ∀ e calls, (e, calls) ∈ p.presses → ¬ Chatters e.release := by
  constructor
  · intro h e calls hmem hchatters
    obtain ⟨n, hn⟩ := List.mem_iff_getElem?.mp hmem
    have hcount := p.count_press hn
    rw [h n e calls hn, if_pos hchatters] at hcount
    omega
  · intro h n e calls hn
    rw [p.count_press hn, if_neg (h e calls (List.mem_of_getElem? hn))]

/-! ## Every list of presses can be played -/

/-- The four calls of a round through the rows, with key `(r, i)` pressed or not. -/
def keyRound (r i : Fin 4) (pressed : Bool) : List UInt8 :=
  (List.range 4).map fun row : ℕ =>
    if row = r ∧ pressed = true then ~~~((1 : UInt8) <<< UInt8.ofNat i) else 0xFF

/-- Rounds with the given samples of the key. -/
def keyRounds (r i : Fin 4) (samples : List Bool) : List UInt8 :=
  samples.flatMap (keyRound r i)

theorem length_keyRounds (r i : Fin 4) (samples : List Bool) :
    (keyRounds r i samples).length = 4 * samples.length := by
  induction samples with
  | nil => rfl
  | cons b samples ih =>
    have hround : (keyRound r i b).length = 4 := rfl
    rw [keyRounds, List.flatMap_cons, List.length_append, hround, ← keyRounds, ih,
      List.length_cons]
    omega

theorem keySamplesFrom_append (row r i : ℕ) (xs ys : List UInt8) :
    keySamplesFrom row r i (xs ++ ys) =
      keySamplesFrom row r i xs ++ keySamplesFrom (row + xs.length) r i ys := by
  unfold keySamplesFrom
  rw [List.zipIdx_append, List.filter_append, List.map_append]

/-- Only the row of the first call matters. -/
theorem keySamplesFrom_congr {row row' : ℕ} (h : row % 4 = row' % 4) (r i : ℕ)
    (calls : List UInt8) : keySamplesFrom row r i calls = keySamplesFrom row' r i calls := by
  induction calls generalizing row row' with
  | nil => rfl
  | cons x calls ih =>
    have hnext : (row + 1) % 4 = (row' + 1) % 4 := by omega
    have htail := ih hnext
    rw [keySamplesFrom_cons, keySamplesFrom_cons, h, htail]

theorem keySamplesFrom_keyRounds {row : ℕ} (hrow : row % 4 = 0) (r i : Fin 4)
    (samples : List Bool) : keySamplesFrom row r i (keyRounds r i samples) = samples := by
  have hround : ∀ (r i : Fin 4) (b : Bool), keySamplesFrom 0 r i (keyRound r i b) = [b] := by
    decide
  induction samples generalizing row with
  | nil => rfl
  | cons b samples ih =>
    -- a round scans the row of the key once
    have hlen : (keyRound r i b).length = 4 := rfl
    have hfirst : keySamplesFrom row r i (keyRound r i b) = [b] := by
      rw [← hround r i b]
      exact keySamplesFrom_congr hrow r i _
    rw [keyRounds, List.flatMap_cons, keySamplesFrom_append, hlen, ← keyRounds, ih (by omega),
      hfirst]
    rfl

/-- In a round no column is low but that of the key, in the scan of its row. -/
theorem keyPressed_of_mem_keyRound {r i : Fin 4} {b : Bool} {t j : ℕ} {x : UInt8}
    (hx : (keyRound r i b)[t]? = some x) (hj : j < 4) (hne : ¬ (t = r ∧ j = i)) :
    keyPressed x j = false := by
  have hcolumn : ∀ i : Fin 4, ∀ j : ℕ, j < 4 → j ≠ i →
      keyPressed (~~~((1 : UInt8) <<< UInt8.ofNat i)) j = false := by decide
  have hopen : ∀ j < 4, keyPressed 0xFF j = false := by decide
  rw [keyRound, List.getElem?_map, Option.map_eq_some_iff] at hx
  obtain ⟨row, hrow, rfl⟩ := hx
  have ht : t < 4 := by
    have := (List.getElem?_eq_some_iff.mp hrow).1
    rwa [List.length_range] at this
  obtain rfl : t = row := by
    rw [List.getElem?_range ht] at hrow
    exact Option.some.inj hrow
  split
  · rename_i hkey
    exact hcolumn i j hj fun hji => hne ⟨hkey.1, hji⟩
  · exact hopen j hj

theorem othersReleased_keyRounds {row : ℕ} (hrow : row % 4 = 0) (r i : Fin 4)
    (samples : List Bool) : OthersReleased row r i (keyRounds r i samples) := by
  induction samples generalizing row with
  | nil =>
    intro t x j hx
    simp [keyRounds] at hx
  | cons b samples ih =>
    intro t x j hx hj hne
    have hlen : (keyRound r i b).length = 4 := rfl
    rw [keyRounds, List.flatMap_cons] at hx
    -- a call of the first round, or of a later one
    by_cases ht : t < 4
    · rw [List.getElem?_append_left (by omega)] at hx
      exact keyPressed_of_mem_keyRound hx hj (by rwa [show (row + t) % 4 = t by omega] at hne)
    · rw [List.getElem?_append_right (by omega), hlen] at hx
      have hround : (row + 4) % 4 = 0 := by omega
      refine ih hround (t - 4) x j hx hj ?_
      rwa [show row + 4 + (t - 4) = row + t by omega]

/-- Each press with the calls of its rounds. -/
def inRounds (r i : Fin 4) (episodes : List PressEpisode) : List (PressEpisode × List UInt8) :=
  episodes.map fun e => (e, keyRounds r i e.samples)

theorem inRounds_getElem? {r i : Fin 4} {episodes : List PressEpisode} {n : ℕ}
    {e : PressEpisode} {calls : List UInt8} (h : (inRounds r i episodes)[n]? = some (e, calls)) :
    calls = keyRounds r i e.samples := by
  rw [inRounds, List.getElem?_map, Option.map_eq_some_iff] at h
  obtain ⟨e', -, heq⟩ := h
  obtain ⟨rfl, rfl⟩ := Prod.mk.inj heq
  rfl

/-- Every press starts with the first row. -/
theorem length_callsBefore_inRounds (r i : Fin 4) (episodes : List PressEpisode) (n : ℕ) :
    (callsBefore (inRounds r i episodes) n).length % 4 = 0 := by
  induction episodes generalizing n with
  | nil => rw [inRounds, callsBefore, List.map_nil, List.take_nil, List.flatMap_nil]; rfl
  | cons e episodes ih =>
    cases n with
    | zero => rfl
    | succ n =>
      have hrest := ih n
      have hlen := length_keyRounds r i e.samples
      rw [callsBefore, inRounds] at hrest
      rw [callsBefore, inRounds, List.map_cons, List.take_succ_cons, List.flatMap_cons,
        List.length_append, hlen]
      omega

/-- Any list of presses, played from reset. -/
def KeyPlay.ofEpisodes (r i : Fin 4) (episodes : List PressEpisode) : KeyPlay r i where
  start := Keypad.reset
  row := 0
  atRow := Keypad.AtRow.reset
  released := rfl
  presses := inRounds r i episodes
  played n e calls h := by
    have hrow := length_callsBefore_inRounds r i episodes n
    rw [inRounds_getElem? h, Nat.zero_add]
    exact keySamplesFrom_keyRounds hrow r i e.samples
  others n e calls h := by
    have hrow := length_callsBefore_inRounds r i episodes n
    rw [inRounds_getElem? h, Nat.zero_add]
    exact othersReleased_keyRounds hrow r i e.samples

/-- A press without bounce whose release opens, closes once more, and opens. -/
def PressEpisode.doubled : PressEpisode where
  bounce := []
  held := 64
  release := [false, true]
  rest := 65
  bounce_length := by decide
  held_ge := by decide
  release_length := by decide
  rest_ge := by decide

/-- The key of the first row and column, pressed like this once, is reported twice. -/
theorem not_oneReportPerPress_doubled :
    ¬ OneReportPerPress (KeyPlay.ofEpisodes 0 0 [PressEpisode.doubled]) := by
  intro h
  have hpress : (KeyPlay.ofEpisodes 0 0 [PressEpisode.doubled]).presses[0]? =
      some (PressEpisode.doubled, keyRounds 0 0 PressEpisode.doubled.samples) := rfl
  have hcount := KeyPlay.count_press _ hpress
  have hchatters : Chatters PressEpisode.doubled.release := by decide
  rw [h 0 _ _ hpress, if_pos hchatters] at hcount
  omega

end LoccFirmware.Input
