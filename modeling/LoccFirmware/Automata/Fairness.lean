import LoccFirmware.Automata.Mealy

/-!
# Progress Under Fair Schedules

Several parties take turns at a machine, in an order that nobody controls.  A rank that no
turn raises, together with the party that each state waits for, shows that the machine
gets somewhere: a turn of that party lowers the rank, and a turn of another party lowers
it too or leaves the machine waiting for the same one.  So every round in which all
parties have a turn lowers the rank, whatever the order within the round and however often
the parties come.

## Main results

- `Mealy.Progress.round`: one round lowers the rank
- `Mealy.Progress.rounds`: as many rounds as the rank says bring it to zero
-/

namespace LoccFirmware.Automata.Mealy

variable {σ ι ο κ : Type*}

/-- `rank` bounds the rounds that are left, and `waitsFor` is the party whose turn lowers
it.  Only states with `inv` and inputs with `ok` are considered. -/
structure Progress (M : Mealy σ ι ο) (inv : σ → Prop) (ok : ι → Prop) (party : ι → κ)
    (rank : σ → ℕ) (waitsFor : σ → κ) : Prop where
  keeps : ∀ s i, inv s → ok i → inv (M.step s i).1
  le : ∀ s i, inv s → ok i → rank (M.step s i).1 ≤ rank s
  lowers : ∀ s i, inv s → ok i → rank s ≠ 0 → party i = waitsFor s →
    rank (M.step s i).1 < rank s
  waits : ∀ s i, inv s → ok i → rank s ≠ 0 → party i ≠ waitsFor s →
    rank (M.step s i).1 = rank s → waitsFor (M.step s i).1 = waitsFor s

namespace Progress

variable {M : Mealy σ ι ο} {inv : σ → Prop} {ok : ι → Prop} {party : ι → κ} {rank : σ → ℕ}
  {waitsFor : σ → κ}

theorem run_inv (h : Progress M inv ok party rank waitsFor) {s : σ} (hs : inv s) {is : List ι}
    (hok : ∀ i ∈ is, ok i) : inv (M.run s is) := by
  induction is generalizing s with
  | nil => exact hs
  | cons i is ih =>
    rw [List.forall_mem_cons] at hok
    exact ih (h.keeps s i hs hok.1) hok.2

theorem run_le (h : Progress M inv ok party rank waitsFor) {s : σ} (hs : inv s) {is : List ι}
    (hok : ∀ i ∈ is, ok i) : rank (M.run s is) ≤ rank s := by
  induction is generalizing s with
  | nil => exact Nat.le_refl _
  | cons i is ih =>
    rw [List.forall_mem_cons] at hok
    exact Nat.le_trans (ih (h.keeps s i hs hok.1) hok.2) (h.le s i hs hok.1)

/-- **One round** in which the awaited party has a turn lowers the rank. -/
theorem round (h : Progress M inv ok party rank waitsFor) {s : σ} (hs : inv s)
    (hrank : rank s ≠ 0) {is : List ι} (hok : ∀ i ∈ is, ok i)
    (hturn : ∃ i ∈ is, party i = waitsFor s) : rank (M.run s is) < rank s := by
  induction is generalizing s with
  | nil =>
    obtain ⟨i, hi, -⟩ := hturn
    cases hi
  | cons i is ih =>
    rw [List.forall_mem_cons] at hok
    have hstep := h.keeps s i hs hok.1
    have hrest := h.run_le hstep hok.2
    by_cases hparty : party i = waitsFor s
    · exact Nat.lt_of_le_of_lt hrest (h.lowers s i hs hok.1 hrank hparty)
    · rcases Nat.lt_or_eq_of_le (h.le s i hs hok.1) with hlt | heq
      · exact Nat.lt_of_le_of_lt hrest hlt
      · -- the turn changed nothing that matters, and the awaited one is still to come
        have hwaits := h.waits s i hs hok.1 hrank hparty heq
        obtain ⟨j, hj, hjparty⟩ := hturn
        have hj : j ∈ is := by
          rcases List.mem_cons.mp hj with rfl | hj
          · exact absurd hjparty hparty
          · exact hj
        have hlt := ih hstep (heq ▸ hrank) hok.2 ⟨j, hj, hwaits ▸ hjparty⟩
        exact heq ▸ hlt

/-- **Many rounds**: each of them lowers the rank by one at least. -/
theorem rounds (h : Progress M inv ok party rank waitsFor) {s : σ} (hs : inv s)
    {rounds : List (List ι)} (hok : ∀ r ∈ rounds, ∀ i ∈ r, ok i)
    (hturns : ∀ r ∈ rounds, ∀ k, ∃ i ∈ r, party i = k) :
    rank (M.run s rounds.flatten) ≤ rank s - rounds.length := by
  induction rounds generalizing s with
  | nil => exact Nat.le_refl _
  | cons r rounds ih =>
    rw [List.forall_mem_cons] at hok hturns
    rw [List.flatten_cons, run_append, List.length_cons]
    have hrest := ih (h.run_inv hs hok.1) hok.2 hturns.2
    by_cases hrank : rank s = 0
    · have hle := h.run_le hs hok.1
      omega
    · have hlt := h.round hs hrank hok.1 (hturns.1 _)
      omega

end Progress

end LoccFirmware.Automata.Mealy
