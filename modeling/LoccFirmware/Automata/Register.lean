import LoccFirmware.Automata.Mealy
import Mathlib.Data.List.ReduceOption

/-!
# Registers of a Machine

A part of a machine's state is a register if every step either writes a value to it, which
can be read off the input and the output of the step, or leaves it alone.  What a register
holds after a run is then the last value written in that run, or what it held before.

## Main results

- `Mealy.IsRegister.run`: the last write wins
-/

namespace LoccFirmware.Automata.Mealy

variable {σ ι ο α : Type*}

/-- `f` changes by the given writes only. -/
structure IsRegister (M : Mealy σ ι ο) (f : σ → α) (writes : ι → ο → Option α) : Prop where
  step : ∀ s i, f (M.step s i).1 = (writes i (M.step s i).2).getD (f s)

/-- The last value written in a run, or else `a`. -/
def lastWritten (M : Mealy σ ι ο) (writes : ι → ο → Option α) (s : σ) (is : List ι) (a : α) : α :=
  (M.drives writes s is).reduceOption.getLastD a

/-- **The last write wins.** -/
theorem IsRegister.run {M : Mealy σ ι ο} {f : σ → α} {writes : ι → ο → Option α}
    (h : IsRegister M f writes) (s : σ) (is : List ι) :
    f (M.run s is) = M.lastWritten writes s is (f s) := by
  induction is generalizing s with
  | nil => rfl
  | cons i is ih =>
    rw [run_cons, ih, h.step, lastWritten, lastWritten, drives_cons]
    cases writes i (M.step s i).2 with
    | none => rw [List.reduceOption_cons_of_none, Option.getD_none]
    | some a =>
      rw [List.reduceOption_cons_of_some, Option.getD_some, List.getLastD_cons]

end LoccFirmware.Automata.Mealy
