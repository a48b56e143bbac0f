import LoccFirmware.Input.Keypad

/-!
# Sixteen Keys, Sixteen Debouncers

The cells of `debouncing` are updated four at a time, by a loop that also merges the
reports of the four keys into one returned character.  Seen from outside, every key
has a debouncer of its own that is fed with the samples of its column in the scans of
its row and nothing else, and a scan returns the character of the last key of the row
whose debouncer reports.
-/

namespace LoccFirmware.Input

open LoccFirmware.Automata

/-! ## The abstract keypad -/

/-- The columns are pulled up, and a pressed key pulls its column low. -/
def keyPressed (pind : UInt8) (i : ℕ) : Bool :=
  pind &&& (1 : UInt8) <<< UInt8.ofNat i = 0

/-- The samples of key `(r, i)`: column `i` in the calls whose index is `r` modulo 4. -/
def keySamples (r i : ℕ) (samples : List UInt8) : List Bool :=
  (samples.zipIdx.filter fun xt => xt.2 % 4 = r).map fun xt => keyPressed xt.1 i

/-- The debouncer of key `(t % 4, i)` reports in call `t`. -/
def KeyReports (samples : List UInt8) (t i : ℕ) : Prop :=
  ((debouncer 0x40).outputs 0 (keySamples (t % 4) i (samples.take (t + 1)))).getLast? = some true

theorem keySamples_concat (r i : ℕ) (samples : List UInt8) (x : UInt8) :
    keySamples r i (samples ++ [x]) =
      keySamples r i samples ++ if samples.length % 4 = r then [keyPressed x i] else [] := by
  unfold keySamples
  rw [List.zipIdx_append, List.filter_append, List.map_append]
  by_cases hr : samples.length % 4 = r <;> simp [hr]

/-! ## One scan -/

/-- What the loop body does to a cell. -/
def debouncedCell (cell : UInt8) (pressed : Bool) : UInt8 :=
  if cell ≤ 1 then if pressed then if cell = 0 then 0x40 else cell else 0 else cell - 1

theorem setCell_self (cells : ℕ → ℕ → UInt8) (r i : ℕ) : setCell cells r i (cells r i) = cells := by
  funext r' i'
  unfold setCell
  split
  · rename_i h
    rw [h.1, h.2]
  · rfl

/-- The loop body writes one cell and overwrites `ret` if the key is reported. -/
theorem scanColumn_eq (row : ℕ) (rowState : UInt8) (i : ℕ) (cells : ℕ → ℕ → UInt8) (ret : UInt8) :
    scanColumn row rowState i (cells, ret) =
      (setCell cells row i (debouncedCell (cells row i) (columnPressed rowState i)),
        if cells row i = 0 ∧ columnPressed rowState i = true then lookupAt (row * 4 + i)
        else ret) := by
  unfold scanColumn debouncedCell
  by_cases hle : cells row i ≤ 1
  · by_cases hp : columnPressed rowState i = true
    · by_cases hzero : cells row i = 0
      · simp [hp, hzero]
      · simp [hle, hp, hzero, setCell_self]
    · simp [hle, hp]
  · -- in the lockout the cell is only counted down
    have hzero : cells row i ≠ 0 := by
      intro h
      exact hle (by rw [h]; decide)
    simp [hle, hzero]

/-- `ret` after the columns below `n`: the character of the greatest reported one, or
    what it was before. -/
def MergedReport (row n : ℕ) (reported : ℕ → Prop) (before ret : UInt8) : Prop :=
  (∃ i < n, reported i ∧ (∀ j, i < j → j < n → ¬ reported j) ∧ ret = lookupAt (row * 4 + i)) ∨
    ((∀ i < n, ¬ reported i) ∧ ret = before)

/-- The loop up to column `n`: the cells of the row below `n` are debounced, every other
    cell is as before, and the reports are merged. -/
theorem foldl_scanColumn (row : ℕ) (rowState : UInt8) (n : ℕ) (cells : ℕ → ℕ → UInt8)
    (ret : UInt8) :
    let s := (List.range n).foldl (fun s i => scanColumn row rowState i s) (cells, ret)
    (∀ r' i', s.1 r' i' =
      if r' = row ∧ i' < n then debouncedCell (cells row i') (columnPressed rowState i')
      else cells r' i') ∧
    MergedReport row n (fun i => cells row i = 0 ∧ columnPressed rowState i = true) ret s.2 := by
  induction n with
  | zero => exact ⟨by simp, Or.inr ⟨by simp, rfl⟩⟩
  | succ n ih =>
    simp only [List.range_succ, List.foldl_append, List.foldl_cons, List.foldl_nil] at ih ⊢
    obtain ⟨hcells, hret⟩ := ih
    generalize (List.range n).foldl (fun s i => scanColumn row rowState i s) (cells, ret) = s
      at hcells hret
    obtain ⟨cells', ret'⟩ := s
    simp only at hcells hret
    -- column `n` has not been touched yet
    have hcell : cells' row n = cells row n := (hcells row n).trans (by simp)
    rw [scanColumn_eq, hcell]
    refine ⟨fun r' i' => ?_, ?_⟩
    -- the cells: this one, an earlier one of the row, or another
    · simp only [setCell]
      by_cases hhit : r' = row ∧ i' = n
      · obtain ⟨rfl, rfl⟩ := hhit
        simp
      · rw [if_neg hhit, hcells r' i']
        by_cases hr : r' = row
        · have hi : i' ≠ n := fun h => hhit ⟨hr, h⟩
          have hiff : (r' = row ∧ i' < n) ↔ (r' = row ∧ i' < n + 1) := by omega
          simp only [hiff]
        · simp [hr]
    · by_cases hrep : cells row n = 0 ∧ columnPressed rowState n = true
      · left
        refine ⟨n, Nat.lt_succ_self n, hrep, fun j hj hjn => by omega, ?_⟩
        rw [if_pos hrep]
      · rw [if_neg hrep]
        rcases hret with ⟨i, hi, hri, hlast, hri'⟩ | ⟨hnone, hbefore⟩
        · left
          refine ⟨i, by omega, hri, fun j hij hjn => ?_, hri'⟩
          rcases Nat.lt_succ_iff_lt_or_eq.mp hjn with hlt | rfl
          · exact hlast j hij hlt
          · exact hrep
        · right
          refine ⟨fun i hi => ?_, hbefore⟩
          rcases Nat.lt_succ_iff_lt_or_eq.mp hi with hlt | rfl
          · exact hnone i hlt
          · exact hrep

theorem columnPressed_not (pind : UInt8) {i : ℕ} (hi : i < 4) :
    columnPressed (~~~(pind >>> 0)) i = keyPressed pind i := by
  -- inverting the port and testing a bit is testing it for 0
  have table : ∀ n < 256, ∀ i < 4,
      columnPressed (~~~(UInt8.ofNat n >>> 0)) i = keyPressed (UInt8.ofNat n) i := by
    decide +kernel
  have h := table pind.toNat pind.toNat_lt i hi
  rwa [UInt8.ofNat_toNat] at h

theorem debouncedCell_toNat (cell : UInt8) (pressed : Bool) :
    (debouncedCell cell pressed).toNat = (debounce 0x40 cell.toNat pressed).1 :=
  debounced_cell_toNat 0x40 cell pressed

theorem keypadScan_eq (pind : UInt8) (k : Keypad) :
    (keypadScan pind k).1.debouncing =
        (scanColumns k.row.toNat (~~~(pind >>> 0)) (k.debouncing, 0)).1 ∧
      (keypadScan pind k).2 =
        (scanColumns k.row.toNat (~~~(pind >>> 0)) (k.debouncing, 0)).2 := by
  unfold keypadScan
  simp only
  split <;> exact ⟨rfl, rfl⟩

/-- **One scan**: the four cells of the current row are debounced with the sample of
    their columns, the other twelve are untouched, and the character returned is that
    of the greatest column reported, or 0. -/
theorem keypadScan_spec {r : ℕ} {k : Keypad} (hk : k.AtRow r) (pind : UInt8) :
    (∀ r' i', i' < 4 → (keypadScan pind k).1.debouncing r' i' =
      if r' = r then debouncedCell (k.debouncing r i') (keyPressed pind i')
      else k.debouncing r' i') ∧
    MergedReport r 4 (fun i => i < 4 ∧ k.debouncing r i = 0 ∧ keyPressed pind i = true) 0
      (keypadScan pind k).2 := by
  obtain ⟨hcells, hret⟩ := foldl_scanColumn r (~~~(pind >>> 0)) 4 k.debouncing 0
  rw [(keypadScan_eq pind k).1, (keypadScan_eq pind k).2, hk.toNat, scanColumns]
  refine ⟨fun r' i' hi => ?_, ?_⟩
  · rw [hcells r' i', columnPressed_not pind hi]
    simp [hi]
  · have hiff : ∀ i < 4, (k.debouncing r i = 0 ∧ columnPressed (~~~(pind >>> 0)) i = true) ↔
        (i < 4 ∧ k.debouncing r i = 0 ∧ keyPressed pind i = true) := by
      intro i hi
      rw [columnPressed_not pind hi]
      simp [hi]
    rcases hret with ⟨i, hi, hrep, hlast, hval⟩ | ⟨hnone, hval⟩
    · exact Or.inl ⟨i, hi, (hiff i hi).mp hrep,
        fun j hij hj h => hlast j hij hj ((hiff j hj).mpr h), hval⟩
    · exact Or.inr ⟨fun i hi h => hnone i hi ((hiff i hi).mpr h), hval⟩

/-! ## Whole runs -/

/-- Every cell is the state of the debouncer of its key. -/
theorem debouncing_toNat (samples : List UInt8) {r i : ℕ} (hi : i < 4) :
    ((keypad.run Keypad.reset samples).debouncing r i).toNat =
      (debouncer 0x40).run 0 (keySamples r i samples) := by
  refine Mealy.history_induction (M := keypad) (s := Keypad.reset)
    (P := fun is k _ => (k.debouncing r i).toNat = (debouncer 0x40).run 0 (keySamples r i is))
    rfl (fun is x ih => ?_) samples
  obtain ⟨hcells, -⟩ := keypadScan_spec (keypad_atRow is) x
  rw [keySamples_concat]
  show ((keypadScan x (keypad.run Keypad.reset is)).1.debouncing r i).toNat = _
  rw [hcells r i hi]
  -- the call is one of the key's own row, or it leaves the key alone
  by_cases hr : r = is.length % 4
  · rw [if_pos hr, if_pos hr.symm, ← hr, debouncedCell_toNat, Mealy.run_concat, ih]
    rfl
  · rw [if_neg hr, if_neg (fun h => hr h.symm), List.append_nil]
    exact ih

theorem keyReports_iff {samples : List UInt8} {t : ℕ} {x : UInt8} (hx : samples[t]? = some x)
    {i : ℕ} (hi : i < 4) :
    KeyReports samples t i ↔
      (keypad.run Keypad.reset (samples.take t)).debouncing (t % 4) i = 0 ∧
        keyPressed x i = true := by
  have hlen : (samples.take t).length = t := by
    have := (List.getElem?_eq_some_iff.mp hx).1
    rw [List.length_take]
    omega
  -- call `t` is one of row `t % 4`, so its sample is the key's last one
  have hlast : keySamples (t % 4) i (samples.take (t + 1)) =
      keySamples (t % 4) i (samples.take t) ++ [keyPressed x i] := by
    rw [List.take_add_one, hx, Option.toList_some, keySamples_concat, hlen, if_pos rfl]
  rw [KeyReports, hlast, Mealy.outputs_concat, List.getLast?_concat, debouncer_step,
    Option.some.injEq, debounce_reports_iff, ← debouncing_toNat (samples.take t) hi,
    ← eq_zero_iff_toNat]

/-- What call `t` returns: the character of the greatest column reported, or 0. -/
theorem keypad_returns (samples : List UInt8) {t : ℕ} (ht : t < samples.length) :
    ∃ ret, (keypad.outputs Keypad.reset samples)[t]? = some ret ∧
      ((∃ i < 4, KeyReports samples t i ∧ (∀ j, i < j → j < 4 → ¬ KeyReports samples t j) ∧
          ret = lookupAt (4 * (t % 4) + i)) ∨
        ((∀ i < 4, ¬ KeyReports samples t i) ∧ ret = 0)) := by
  have hx : samples[t]? = some samples[t] := List.getElem?_eq_getElem ht
  refine ⟨_, by rw [Mealy.outputs_getElem?, hx, Option.map_some], ?_⟩
  -- the state before call `t` looks at row `t % 4`
  have hrow := keypad_atRow (samples.take t)
  rw [List.length_take, Nat.min_eq_left (Nat.le_of_lt ht)] at hrow
  obtain ⟨-, hmerged⟩ := keypadScan_spec hrow samples[t]
  rcases hmerged with ⟨i, hi, ⟨-, hrep⟩, hlast, hret⟩ | ⟨hnone, hret⟩
  · refine Or.inl ⟨i, hi, (keyReports_iff hx hi).mpr hrep, fun j hij hj hrepj => ?_, ?_⟩
    · exact hlast j hij hj ⟨hj, (keyReports_iff hx hj).mp hrepj⟩
    · rw [Nat.mul_comm 4]
      exact hret
  · exact Or.inr ⟨fun i hi hrep => hnone i hi ⟨hi, (keyReports_iff hx hi).mp hrep⟩, hret⟩

/-- **Refinement**: from reset, whatever the samples, each cell of `debouncing` is the
    state of a debouncer fed with the samples of its own key only, and call `t` returns
    the character of the greatest column whose debouncer reports in it, or 0 if none
    does. -/
theorem keypad_refines_debouncers (samples : List UInt8) :
    (∀ r < 4, ∀ i < 4, ((keypad.run Keypad.reset samples).debouncing r i).toNat =
      (debouncer 0x40).run 0 (keySamples r i samples)) ∧
    (∀ t < samples.length, ∃ ret, (keypad.outputs Keypad.reset samples)[t]? = some ret ∧
      ((∃ i < 4, KeyReports samples t i ∧ (∀ j, i < j → j < 4 → ¬ KeyReports samples t j) ∧
          ret = lookupAt (4 * (t % 4) + i)) ∨
        ((∀ i < 4, ¬ KeyReports samples t i) ∧ ret = 0))) := by
  exact ⟨fun r _ i hi => debouncing_toNat samples hi, fun t ht => keypad_returns samples ht⟩

end LoccFirmware.Input
