import Mathlib.Algebra.BigOperators.Group.Finset.Basic
import Mathlib.Algebra.Order.BigOperators.Group.Finset

/-!
# Blocks Packed in a Memory

Blocks with numbers and sizes lie in one memory, each beginning somewhere.  They are
packed if every block begins where the blocks with smaller numbers end; a block of size
zero takes no part.  Packed blocks do not overlap, and they take up as much memory as their
sizes say.

An allocator that places a block behind the nearest one below it, as `endBelow` says, packs
one block more.

## Main results

- `Packed.succ`: a block that begins at `endBelow` is packed
- `Packed.disjoint`: packed blocks do not overlap
- `Packed.within`: they end at the sum of their sizes
-/

namespace LoccFirmware.Memory

variable {size size' start start' : ℕ → ℕ}

/-! ## Sums of sizes -/

/-- The sizes of the first `n` blocks together. -/
def offset (size : ℕ → ℕ) (n : ℕ) : ℕ :=
  ∑ i ∈ Finset.range n, size i

theorem offset_succ (n : ℕ) : offset size (n + 1) = offset size n + size n :=
  Finset.sum_range_succ size n

theorem offset_congr {n : ℕ} (h : ∀ i < n, size i = size' i) : offset size n = offset size' n :=
  Finset.sum_congr rfl fun i hi => h i (Finset.mem_range.mp hi)

theorem offset_le_offset {n : ℕ} (h : ∀ i < n, size i ≤ size' i) :
    offset size n ≤ offset size' n :=
  Finset.sum_le_sum fun i hi => h i (Finset.mem_range.mp hi)

theorem offset_mono : Monotone (offset size) :=
  monotone_nat_of_le_succ fun n => by
    rw [offset_succ]
    exact Nat.le_add_right _ _

/-! ## Packed blocks -/

/-- The end of the nearest block below `n`, or the beginning of the memory. -/
def endBelow (size start : ℕ → ℕ) : ℕ → ℕ
  | 0 => 0
  | n + 1 => if size n = 0 then endBelow size start n else start n + size n

theorem endBelow_congr {n : ℕ} (hsize : ∀ i < n, size i = size' i)
    (hstart : ∀ i < n, start i = start' i) : endBelow size start n = endBelow size' start' n := by
  induction n with
  | zero => rfl
  | succ n ih =>
    have hbelow := ih (fun i hi => hsize i (Nat.lt_succ_of_lt hi))
      (fun i hi => hstart i (Nat.lt_succ_of_lt hi))
    rw [endBelow, endBelow, hsize n (Nat.lt_succ_self n), hstart n (Nat.lt_succ_self n), hbelow]

/-- The blocks below `n` lie one behind the other. -/
def Packed (size start : ℕ → ℕ) (n : ℕ) : Prop :=
  ∀ i < n, size i ≠ 0 → start i = offset size i

namespace Packed

variable {n : ℕ}

theorem zero : Packed size start 0 :=
  fun _ hi => absurd hi (Nat.not_lt_zero _)

theorem congr (h : Packed size start n) (hsize : ∀ i < n, size i = size' i)
    (hstart : ∀ i < n, start i = start' i) : Packed size' start' n := by
  intro i hi hsome
  have hbelow : ∀ j < i, size j = size' j := fun j hj => hsize j (Nat.lt_trans hj hi)
  rw [← hsize i hi] at hsome
  rw [← hstart i hi, h i hi hsome, offset_congr hbelow]

theorem endBelow_eq (h : Packed size start n) : endBelow size start n = offset size n := by
  induction n with
  | zero => rfl
  | succ n ih =>
    rw [endBelow, offset_succ]
    split
    · rename_i hnone
      rw [hnone, ih fun i hi => h i (Nat.lt_succ_of_lt hi), Nat.add_zero]
    · rename_i hsome
      rw [h n (Nat.lt_succ_self n) hsome]

/-- A block behind the nearest one below it is packed. -/
theorem succ (h : Packed size start n) (hnext : size n ≠ 0 → start n = endBelow size start n) :
    Packed size start (n + 1) := by
  intro i hi hsome
  rcases Nat.lt_succ_iff_lt_or_eq.mp hi with hlt | rfl
  · exact h i hlt hsome
  · rw [hnext hsome, h.endBelow_eq]

theorem disjoint (h : Packed size start n) {i j : ℕ} (hij : i < j) (hj : j < n)
    (hi : size i ≠ 0) (hsome : size j ≠ 0) : start i + size i ≤ start j := by
  rw [h i (Nat.lt_trans hij hj) hi, h j hj hsome, ← offset_succ]
  exact offset_mono hij

theorem within (h : Packed size start n) {i : ℕ} (hi : i < n) (hsome : size i ≠ 0) :
    start i + size i ≤ offset size n := by
  rw [h i hi hsome, ← offset_succ]
  exact offset_mono hi

end Packed

end LoccFirmware.Memory
