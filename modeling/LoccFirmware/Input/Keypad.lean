import LoccFirmware.Input.Dial

/-!
# The Keypad Matrix

`keypad_scan` (`keypad.c`) is called once per frame and looks at one row of a four by
four matrix: it samples the columns, debounces the four keys of the row, moves on to
the next row and returns the character of a key that has just been pressed, or 0.

`debouncing` is modelled as a function of row and column, `row` as the `uint8_t` it is,
so that nothing in the types keeps an index within the array.
-/

namespace LoccFirmware.Input

open LoccFirmware.Automata

/-! ## The scan -/

/-- The statics of `keypad_scan` and the global `matrix_selector`. -/
structure Keypad where
  row : UInt8
  debouncing : ℕ → ℕ → UInt8
  matrixSelector : UInt8

/-- The state after reset. -/
def Keypad.reset : Keypad where
  row := 0
  debouncing := fun _ _ => 0
  matrixSelector := 0x10

/-- `lookup`. -/
def lookup : List Char :=
  ['2', '5', '8', '0', '1', '4', '7', 'a', 'f', 'e', 'd', 'c', '3', '6', '9', 'b']

/-- `lookup[index]`; behind the sixteen characters stands the terminating 0. -/
def lookupAt (index : ℕ) : UInt8 :=
  (lookup[index]?.map Char.toUInt8).getD 0

/-- `debouncing[r][i] = value`. -/
def setCell (cells : ℕ → ℕ → UInt8) (r i : ℕ) (value : UInt8) : ℕ → ℕ → UInt8 :=
  fun r' i' => if r' = r ∧ i' = i then value else cells r' i'

/-- `row_state & (1<<i)`. -/
def columnPressed (rowState : UInt8) (i : ℕ) : Bool :=
  rowState &&& (1 : UInt8) <<< UInt8.ofNat i ≠ 0

/-- The body of the loop over the columns, on the cells and `ret`. -/
def scanColumn (row : ℕ) (rowState : UInt8) (i : ℕ) (s : (ℕ → ℕ → UInt8) × UInt8) :
    (ℕ → ℕ → UInt8) × UInt8 :=
  let (debouncing, ret) := s
  if debouncing row i ≤ 1 then
    if columnPressed rowState i then
      if debouncing row i = 0 then
        -- a later column of the same row overwrites `ret`
        (setCell debouncing row i 0x40, lookupAt (row * 4 + i))
      else (debouncing, ret)
    else (setCell debouncing row i 0, ret)
  else (setCell debouncing row i (debouncing row i - 1), ret)

/-- The loop `for(uint8_t i=0; i<4; i++)` over the columns. -/
def scanColumns (row : ℕ) (rowState : UInt8) (s : (ℕ → ℕ → UInt8) × UInt8) :
    (ℕ → ℕ → UInt8) × UInt8 :=
  (List.range 4).foldl (fun s i => scanColumn row rowState i s) s

/-- `keypad_scan`, given the sample of the columns in `PIND`. -/
def keypadScan (pind : UInt8) (k : Keypad) : Keypad × UInt8 :=
  let rowState := ~~~(pind >>> 0)
  let (debouncing, ret) := scanColumns k.row.toNat rowState (k.debouncing, 0)
  -- the selector runs out of the byte behind the fourth row
  let matrixSelector := k.matrixSelector <<< 1
  let row := k.row + 1
  if matrixSelector = 0 then
    ({ row := 0, debouncing := debouncing, matrixSelector := 0x10 }, ret)
  else
    ({ row := row, debouncing := debouncing, matrixSelector := matrixSelector }, ret)

/-- The keypad as a machine from samples of port D to returned characters. -/
def keypad : Mealy Keypad UInt8 UInt8 where
  step k pind := keypadScan pind k

/-! ## Rows -/

/-- `row` and `matrix_selector` name the same row. -/
structure Keypad.AtRow (r : ℕ) (k : Keypad) : Prop where
  lt : r < 4
  row : k.row = UInt8.ofNat r
  selector : k.matrixSelector = (0x10 : UInt8) <<< UInt8.ofNat r

theorem Keypad.AtRow.reset : Keypad.AtRow 0 Keypad.reset :=
  ⟨by decide, rfl, rfl⟩

theorem Keypad.AtRow.toNat {r : ℕ} {k : Keypad} (h : k.AtRow r) : k.row.toNat = r := by
  rw [h.row]
  exact UInt8.toNat_ofNat_of_lt' (Nat.lt_trans h.lt (by decide))

/-- `row` and `matrix_selector` after a scan, whatever the columns showed. -/
theorem keypadScan_next (pind : UInt8) (k : Keypad) :
    ((keypadScan pind k).1.row, (keypadScan pind k).1.matrixSelector) =
      if k.matrixSelector <<< 1 = 0 then ((0 : UInt8), (0x10 : UInt8))
      else (k.row + 1, k.matrixSelector <<< 1) := by
  simp only [keypadScan]
  split <;> rfl

/-- A scan moves on to the next row; the selector overflows to 0 behind the last one. -/
theorem Keypad.AtRow.step {r : ℕ} {k : Keypad} (h : k.AtRow r) (pind : UInt8) :
    Keypad.AtRow ((r + 1) % 4) (keypadScan pind k).1 := by
  have hnext := keypadScan_next pind k
  rw [h.row, h.selector] at hnext
  -- four rows, each with a value of its own for the selector
  have htable : ∀ r : Fin 4,
      (if (0x10 : UInt8) <<< UInt8.ofNat r.val <<< 1 = 0 then ((0 : UInt8), (0x10 : UInt8))
        else (UInt8.ofNat r.val + 1, (0x10 : UInt8) <<< UInt8.ofNat r.val <<< 1)) =
      (UInt8.ofNat ((r.val + 1) % 4), (0x10 : UInt8) <<< UInt8.ofNat ((r.val + 1) % 4)) := by
    decide
  rw [htable ⟨r, h.lt⟩] at hnext
  obtain ⟨hrow, hselector⟩ := Prod.mk.inj hnext
  exact ⟨Nat.mod_lt _ (by decide), hrow, hselector⟩

theorem keypad_atRow (samples : List UInt8) :
    Keypad.AtRow (samples.length % 4) (keypad.run Keypad.reset samples) := by
  refine Mealy.history_induction (M := keypad) (P := fun is k _ => Keypad.AtRow (is.length % 4) k)
    Keypad.AtRow.reset (fun is i h => ?_) samples
  have hnext : (is ++ [i]).length % 4 = (is.length % 4 + 1) % 4 := by
    rw [List.length_append, List.length_singleton]
    omega
  rw [hnext]
  exact h.step i

end LoccFirmware.Input
