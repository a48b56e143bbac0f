import LoccFirmware.Automata.Mealy

/-!
# Conservation

A machine that passes items on, a buffer or a link, takes items in at one end, holds some
of them and gives them out at the other.  If every step keeps the items in their order and
loses none, then so does every run: what was held at the start and what was taken in is,
in this order, what was given out and what is held at the end.
-/

namespace LoccFirmware.Automata.Mealy

variable {σ : Type*} {ι : Type*} {ο : Type*} {α : Type*}

/-- On inputs with `J`, as long as `I` holds, and it goes on to hold, each step of `M` passes
on what it takes in, in order: `content` is what a state holds, `taken` and `given` are the
items taken in and given out with an input and its output. -/
structure Conserves (M : Mealy σ ι ο) (I : σ → Prop) (J : ι → Prop) (content : σ → List α)
    (taken given : ι → ο → List α) : Prop where
  /-- The invariant is kept. -/
  keeps : ∀ s i, I s → J i → I (M.step s i).1
  /-- One step loses nothing, makes nothing up and keeps the order. -/
  step : ∀ s i, I s → J i →
    content s ++ taken i (M.step s i).2 = given i (M.step s i).2 ++ content (M.step s i).1

namespace Conserves

variable {M : Mealy σ ι ο} {I : σ → Prop} {J : ι → Prop} {content : σ → List α}
  {taken given : ι → ο → List α}

/-- **Conservation**: no run loses an item, makes one up or changes their order. -/
theorem run (h : Conserves M I J content taken given) {s : σ} (hs : I s) {is : List ι}
    (his : ∀ i ∈ is, J i) :
    content s ++ (M.drives taken s is).flatten =
      (M.drives given s is).flatten ++ content (M.run s is) := by
  induction is generalizing s with
  | nil => simp
  | cons i is ih =>
    have hi : J i := his i List.mem_cons_self
    have hrest := ih (h.keeps s i hs hi) fun j hj => his j (List.mem_cons_of_mem i hj)
    rw [drives_cons, drives_cons, List.flatten_cons, List.flatten_cons, run_cons,
      ← List.append_assoc, h.step s i hs hi, List.append_assoc, hrest, List.append_assoc]

end Conserves

end LoccFirmware.Automata.Mealy
