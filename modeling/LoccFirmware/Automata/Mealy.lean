import Mathlib.Data.List.Induction
import Mathlib.Data.List.TakeDrop

/-!
# Machines with Output

A small library of deterministic machines that read one input at a time and
answer each with one output.  A program that is called over and over (a parser
fed byte by byte, a scan routine polled once per frame, a main loop) is such a
machine, and what it does over time is its `run` and its `outputs`.

## Main definitions

- `Mealy`: a step function `σ → ι → σ × ο`
- `Mealy.run`, `Mealy.outputs`: the state reached and the outputs produced
- `Mealy.Simulation`: a relation between the states of two machines that every
  step keeps, with equal observations; the one drives the other

## Main results

- `Mealy.run_induction`: an invariant of every step holds after every run
- `Mealy.history_induction`: the same for a property of the inputs read so far,
  the state and the outputs produced so far
- `Mealy.run_filterMap`, `Mealy.run_map`: a part of a machine that runs on its own
- `Mealy.replay`: a machine that replays the runs of another on rewritten inputs
- `Mealy.Simulation.run`, `Mealy.Simulation.outputs`: related machines stay
  related and are observed to do the same
-/

namespace LoccFirmware.Automata

universe u v w

/-- A history that has grown by one entry is what it was, and the entry at its end. -/
theorem getElem?_concat_eq_some_iff {α : Type u} {l : List α} {a b : α} {k : ℕ} :
    (l ++ [a])[k]? = some b ↔ l[k]? = some b ∨ (k = l.length ∧ a = b) := by
  rcases Nat.lt_trichotomy k l.length with hlt | rfl | hgt
  · have hne : k ≠ l.length := Nat.ne_of_lt hlt
    simp [List.getElem?_append_left hlt, hne]
  · simp
  · have hne : k ≠ l.length := Nat.ne_of_gt hgt
    rw [List.getElem?_eq_none (by simp; omega), List.getElem?_eq_none (Nat.le_of_lt hgt)]
    simp [hne]

/-- A deterministic machine that answers every input with one output. -/
structure Mealy (σ : Type u) (ι : Type v) (ο : Type w) where
  /-- The next state and the output for one input. -/
  step : σ → ι → σ × ο

namespace Mealy

variable {σ : Type*} {ι : Type*} {ο : Type*} (M : Mealy σ ι ο)

/-! ## Runs -/

/-- The state reached from `s` after reading a list of inputs. -/
def run : σ → List ι → σ
  | s, [] => s
  | s, i :: is => run (M.step s i).1 is

/-- The outputs produced from `s` while reading a list of inputs. -/
def outputs : σ → List ι → List ο
  | _, [] => []
  | s, i :: is => (M.step s i).2 :: outputs (M.step s i).1 is

@[simp] theorem run_nil (s : σ) : M.run s [] = s := rfl

@[simp] theorem run_cons (s : σ) (i : ι) (is : List ι) :
    M.run s (i :: is) = M.run (M.step s i).1 is := rfl

@[simp] theorem outputs_nil (s : σ) : M.outputs s [] = [] := rfl

@[simp] theorem outputs_cons (s : σ) (i : ι) (is : List ι) :
    M.outputs s (i :: is) = (M.step s i).2 :: M.outputs (M.step s i).1 is := rfl

theorem run_append (s : σ) (is js : List ι) :
    M.run s (is ++ js) = M.run (M.run s is) js := by
  induction is generalizing s with
  | nil => rfl
  | cons i is ih => simp only [List.cons_append, run_cons, ih]

theorem outputs_append (s : σ) (is js : List ι) :
    M.outputs s (is ++ js) = M.outputs s is ++ M.outputs (M.run s is) js := by
  induction is generalizing s with
  | nil => rfl
  | cons i is ih => simp only [List.cons_append, outputs_cons, run_cons, ih]

theorem run_concat (s : σ) (is : List ι) (i : ι) :
    M.run s (is ++ [i]) = (M.step (M.run s is) i).1 := by
  rw [run_append, run_cons, run_nil]

theorem outputs_concat (s : σ) (is : List ι) (i : ι) :
    M.outputs s (is ++ [i]) = M.outputs s is ++ [(M.step (M.run s is) i).2] := by
  rw [outputs_append, outputs_cons, outputs_nil]

/-- One input more, read off a given list of inputs. -/
theorem run_take_succ (s : σ) {is : List ι} {t : ℕ} {i : ι} (hi : is[t]? = some i) :
    M.run s (is.take (t + 1)) = (M.step (M.run s (is.take t)) i).1 := by
  rw [List.take_add_one, hi, Option.toList_some, run_concat]

@[simp] theorem outputs_length (s : σ) (is : List ι) :
    (M.outputs s is).length = is.length := by
  induction is generalizing s with
  | nil => rfl
  | cons i is ih => simp only [outputs_cons, List.length_cons, ih]

/-- The output at position `t` is what the state reached by the first `t` inputs
answers to input `t`. -/
theorem outputs_getElem? (s : σ) (is : List ι) (t : ℕ) :
    (M.outputs s is)[t]? = is[t]?.map fun i => (M.step (M.run s (is.take t)) i).2 := by
  induction is generalizing s t with
  | nil => simp
  | cons i is ih =>
    cases t with
    | zero => simp
    | succ t => simpa using ih (M.step s i).1 t

theorem outputs_take (s : σ) (is : List ι) (t : ℕ) :
    M.outputs s (is.take t) = (M.outputs s is).take t := by
  induction is generalizing s t with
  | nil => simp
  | cons i is ih =>
    cases t with
    | zero => rfl
    | succ t => simp only [List.take_succ_cons, outputs_cons, ih]

/-- Every output is the answer of a state on the way to the input at its position. -/
theorem exists_step_of_mem_outputs {s : σ} {is : List ι} {o : ο} (h : o ∈ M.outputs s is) :
    ∃ t i, is[t]? = some i ∧ (M.step (M.run s (is.take t)) i).2 = o := by
  obtain ⟨t, ht⟩ := List.mem_iff_getElem?.mp h
  rw [outputs_getElem?, Option.map_eq_some_iff] at ht
  obtain ⟨i, hi, hstep⟩ := ht
  exact ⟨t, i, hi, hstep⟩

/-! ## Induction over runs -/

variable {M}

/-- An invariant of every step holds after every run. -/
theorem run_induction {I : σ → Prop} (step : ∀ s i, I s → I (M.step s i).1)
    {s : σ} (init : I s) (is : List ι) : I (M.run s is) := by
  induction is generalizing s with
  | nil => exact init
  | cons i is ih => exact ih (step s i init)

/-- A property of the inputs read so far, the state reached and the outputs
produced so far holds after every run if it holds at the start and every further
input keeps it. -/
theorem history_induction {P : List ι → σ → List ο → Prop} {s : σ} (init : P [] s [])
    (step : ∀ is i, P is (M.run s is) (M.outputs s is) →
      P (is ++ [i]) (M.step (M.run s is) i).1
        (M.outputs s is ++ [(M.step (M.run s is) i).2]))
    (is : List ι) : P is (M.run s is) (M.outputs s is) := by
  induction is using List.reverseRecOn with
  | nil => exact init
  | append_singleton is i ih =>
    rw [run_concat, outputs_concat]
    exact step is i ih

/-! ## Components -/

section Components

variable {τ : Type*} {κ : Type*} {ω : Type*} {N : Mealy τ κ ω} {f : σ → τ}

/-- A part of the state that every step of `M` changes as a step of `N` would, on the inputs
picked by `g`, is at every moment where `N` would be. -/
theorem run_filterMap {g : ι → Option κ}
    (step : ∀ s i, f (M.step s i).1 = (g i).elim (f s) fun k => (N.step (f s) k).1)
    (s : σ) (is : List ι) : f (M.run s is) = N.run (f s) (is.filterMap g) := by
  induction is generalizing s with
  | nil => rfl
  | cons i is ih =>
    rw [run_cons, ih, step, List.filterMap_cons]
    cases g i with
    | none => rfl
    | some k => rfl

theorem run_map {g : ι → κ} (step : ∀ s i, f (M.step s i).1 = (N.step (f s) (g i)).1)
    (s : σ) (is : List ι) : f (M.run s is) = N.run (f s) (is.map g) := by
  rw [← List.filterMap_eq_map]
  exact run_filterMap step s is

end Components

/-! ## Replays -/

section Replays

variable {κ : Type*} {g : σ → ι → κ}

/-- The inputs of a run, each rewritten in view of the state that reads it. -/
def rewrites (M : Mealy σ ι ο) (g : σ → ι → κ) : σ → List ι → List κ
  | _, [] => []
  | s, i :: is => g s i :: rewrites M g (M.step s i).1 is

theorem rewrites_getElem? (s : σ) (is : List ι) (t : ℕ) :
    (M.rewrites g s is)[t]? = is[t]?.map fun i => g (M.run s (is.take t)) i := by
  induction is generalizing s t with
  | nil => simp [rewrites]
  | cons i is ih =>
    cases t with
    | zero => simp [rewrites]
    | succ t => simpa [rewrites] using ih (M.step s i).1 t

/-- If `N` does in one step on the rewritten input what `M` does on the input itself, then
it replays every run of `M`. -/
theorem replay {N : Mealy σ κ ο} {I : σ → Prop} (keeps : ∀ s k, I s → I (N.step s k).1)
    (same : ∀ s i, I s → N.step s (g s i) = M.step s i) {s : σ} (init : I s) (is : List ι) :
    N.run s (M.rewrites g s is) = M.run s is ∧
      N.outputs s (M.rewrites g s is) = M.outputs s is := by
  induction is generalizing s with
  | nil => exact ⟨rfl, rfl⟩
  | cons i is ih =>
    have hstep := same s i init
    have hnext : I (M.step s i).1 := hstep ▸ keeps s (g s i) init
    obtain ⟨hrun, houtputs⟩ := ih hnext
    simp only [rewrites, run_cons, outputs_cons, hstep]
    exact ⟨hrun, congrArg _ houtputs⟩

/-- The same with a list of inputs of `N` for each input of `M`, each related to it by `B`;
outputs that are `none` do not count. -/
theorem replay_blocks {M : Mealy σ ι (Option ο)} {N : Mealy σ κ (Option ο)} {I : σ → Prop}
    {B : ι → List κ → Prop} (keeps : ∀ s k, I s → I (N.step s k).1)
    (same : ∀ s i, I s → ∃ ks, B i ks ∧ N.run s ks = (M.step s i).1 ∧
      (N.outputs s ks).filterMap id = (M.step s i).2.toList)
    {s : σ} (init : I s) (is : List ι) :
    ∃ blocks, List.Forall₂ B is blocks ∧ N.run s blocks.flatten = M.run s is ∧
      (N.outputs s blocks.flatten).filterMap id = (M.outputs s is).filterMap id := by
  induction is generalizing s with
  | nil => exact ⟨[], .nil, rfl, rfl⟩
  | cons i is ih =>
    obtain ⟨ks, hblock, hstep, hout⟩ := same s i init
    have hnext : I (M.step s i).1 := hstep ▸ run_induction keeps init ks
    obtain ⟨blocks, hblocks, hrun, houtputs⟩ := ih hnext
    refine ⟨ks :: blocks, .cons hblock hblocks, ?_, ?_⟩
    · rw [List.flatten_cons, run_append, hstep, hrun, run_cons]
    · rw [List.flatten_cons, outputs_append, List.filterMap_append, hout, hstep, houtputs,
        outputs_cons, List.filterMap_cons]
      cases (M.step s i).2 with
      | none => rfl
      | some o => rfl

end Replays

/-! ## Simulations -/

section Simulations

variable {τ : Type*} {κ : Type*} {ω : Type*}

/-- The inputs that a run of `M` supplies to a machine driven by it: each is made of an
input of `M` and of the output that `M` answered it with. -/
def drives (M : Mealy σ ι ο) (inp : ι → ο → κ) (s : σ) (is : List ι) : List κ :=
  List.zipWith inp is (M.outputs s is)

@[simp] theorem drives_nil (inp : ι → ο → κ) (s : σ) : M.drives inp s [] = [] := rfl

@[simp] theorem drives_cons (inp : ι → ο → κ) (s : σ) (i : ι) (is : List ι) :
    M.drives inp s (i :: is) = inp i (M.step s i).2 :: M.drives inp (M.step s i).1 is := rfl

theorem drives_append (inp : ι → ο → κ) (s : σ) (is js : List ι) :
    M.drives inp s (is ++ js) = M.drives inp s is ++ M.drives inp (M.run s is) js := by
  induction is generalizing s with
  | nil => rfl
  | cons i is ih => simp only [List.cons_append, drives_cons, run_cons, ih]

theorem drives_take (inp : ι → ο → κ) (s : σ) (is : List ι) (t : ℕ) :
    M.drives inp s (is.take t) = (M.drives inp s is).take t := by
  rw [drives, drives, outputs_take, List.take_zipWith]

/-- What the inputs of the driven machine take over from `M`'s inputs alone. -/
theorem map_drives {α : Type*} {inp : ι → ο → κ} {f : κ → α} {g : ι → α}
    (h : ∀ i o, f (inp i o) = g i) (s : σ) (is : List ι) :
    (M.drives inp s is).map f = is.map g := by
  induction is generalizing s with
  | nil => rfl
  | cons i is ih => rw [drives_cons, List.map_cons, h, ih, List.map_cons]

/-- If `M`'s outputs do not matter, the driven machine reads `M`'s inputs. -/
theorem drives_input (f : ι → κ) (s : σ) (is : List ι) :
    M.drives (fun i _ => f i) s is = is.map f := by
  induction is generalizing s with
  | nil => rfl
  | cons i is ih => rw [drives_cons, ih, List.map_cons]

/-- If `M`'s inputs do not matter, it reads `M`'s outputs. -/
theorem drives_output (f : ο → κ) (s : σ) (is : List ι) :
    M.drives (fun _ o => f o) s is = (M.outputs s is).map f := by
  induction is generalizing s with
  | nil => rfl
  | cons i is ih => rw [drives_cons, ih, outputs_cons, List.map_cons]

/-- `R` relates the states of `M` to those of `N`: from related states, a step of `M` and
the step of `N` that it drives through `inp` lead to related states, and the output of
`M` observed through `obs` is the output of `N`. -/
structure Simulation (M : Mealy σ ι ο) (N : Mealy τ κ ω)
    (R : σ → τ → Prop) (inp : ι → ο → κ) (obs : ο → ω) : Prop where
  /-- One step of `M` is matched by one step of `N`. -/
  state : ∀ s t i, R s t → R (M.step s i).1 (N.step t (inp i (M.step s i).2)).1
  /-- Matched steps are observed to be the same. -/
  output : ∀ s t i, R s t → obs (M.step s i).2 = (N.step t (inp i (M.step s i).2)).2

namespace Simulation

variable {N : Mealy τ κ ω} {R : σ → τ → Prop} {inp : ι → ο → κ} {obs : ο → ω}

theorem run (sim : Simulation M N R inp obs) {s : σ} {t : τ} (h : R s t) (is : List ι) :
    R (M.run s is) (N.run t (M.drives inp s is)) := by
  induction is generalizing s t with
  | nil => exact h
  | cons i is ih => exact ih (sim.state s t i h)

theorem outputs (sim : Simulation M N R inp obs) {s : σ} {t : τ} (h : R s t) (is : List ι) :
    (M.outputs s is).map obs = N.outputs t (M.drives inp s is) := by
  induction is generalizing s t with
  | nil => rfl
  | cons i is ih =>
    simp only [outputs_cons, List.map_cons, drives_cons, sim.output s t i h]
    rw [ih (sim.state s t i h)]

end Simulation

end Simulations

end Mealy

end LoccFirmware.Automata
