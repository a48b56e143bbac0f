import Mathlib.Data.List.Induction
import Mathlib.Data.List.Count

/-!
# Counting Events

Events are counted by position.  Either all of them are, over the positions of a list, or
those of one kind since the last one of another kind, as a counter does that is cleared
from time to time.

## Main results

- `countP_eq_countP_range`: a list is counted by its positions
- `countP_eq_iff_of_imp`: counting less gives the same exactly when nothing is missed
- `countSince_pos_iff`: there is something to count exactly when it has happened since
-/

namespace LoccFirmware.Automata

/-! ## All positions -/

theorem countP_eq_countP_range {α : Type*} (p : α → Bool) (l : List α) :
    l.countP p = (List.range l.length).countP fun t => l[t]?.any p := by
  induction l using List.reverseRecOn with
  | nil => rfl
  | append_singleton l a ih =>
    rw [List.length_append, List.length_singleton, List.range_succ, List.countP_append,
      List.countP_append, ih]
    congr 1
    · -- the earlier positions are those of the shorter list
      apply List.countP_congr
      intro t ht
      rw [List.getElem?_append_left (List.mem_range.mp ht)]
    · simp

theorem countP_eq_iff_of_imp {α : Type*} {p q : α → Bool} {l : List α}
    (h : ∀ a ∈ l, q a = true → p a = true) :
    l.countP q = l.countP p ↔ ∀ a ∈ l, p a = true → q a = true := by
  constructor
  · induction l with
    | nil => simp
    | cons a l ih =>
      have hl : ∀ b ∈ l, q b = true → p b = true := fun b hb => h b (List.mem_cons_of_mem a hb)
      have hle : l.countP q ≤ l.countP p := List.countP_mono_left hl
      have ha := h a List.mem_cons_self
      intro heq
      rw [List.countP_cons, List.countP_cons] at heq
      -- the head counts the same on both sides, since the tail cannot make up for it
      have hhead : p a = true → q a = true := by
        intro hp
        by_contra hq
        rw [if_pos hp, if_neg hq] at heq
        omega
      have htail : l.countP q = l.countP p := by
        cases hp : p a <;> cases hq : q a <;> simp_all
      intro b hb
      rcases List.mem_cons.mp hb with rfl | hb
      · exact hhead
      · exact ih hl htail b hb
  · intro hpq
    exact List.countP_congr fun a ha => ⟨h a ha, hpq a ha⟩

section Calls

-- the events of each of a list of calls
variable {α β : Type*} (f : α → List β)

theorem countP_nonempty_cons (a : α) (l : List α) :
    (a :: l).countP (fun a => !(f a).isEmpty) =
      l.countP (fun a => !(f a).isEmpty) + min 1 (f a).length := by
  rw [List.countP_cons]
  cases f a <;> simp

theorem countP_le_length_flatMap (l : List α) :
    l.countP (fun a => !(f a).isEmpty) ≤ (l.flatMap f).length := by
  induction l with
  | nil => exact Nat.le_refl 0
  | cons a l ih =>
    rw [countP_nonempty_cons, List.flatMap_cons, List.length_append]
    omega

/-- There are as many events as there are calls with one exactly when no call has two. -/
theorem length_flatMap_eq_countP_iff (l : List α) :
    (l.flatMap f).length = l.countP (fun a => !(f a).isEmpty) ↔ ∀ a ∈ l, (f a).length ≤ 1 := by
  induction l with
  | nil => simp
  | cons a l ih =>
    have hle := countP_le_length_flatMap f l
    have hcons : (∀ b ∈ a :: l, (f b).length ≤ 1) ↔
        (f a).length ≤ 1 ∧ ∀ b ∈ l, (f b).length ≤ 1 := List.forall_mem_cons
    rw [hcons, ← ih, countP_nonempty_cons, List.flatMap_cons, List.length_append]
    omega

end Calls

/-! ## At most one -/

/-- From position `n` on there is at most one event of a kind. -/
def AtMostOnceFrom (n : ℕ) (event : ℕ → Prop) : Prop :=
  ∀ s t, n ≤ s → n ≤ t → event s → event t → s = t

/-! ## Since the last event of another kind -/

open Classical in
/-- How often `p` has happened up to position `t`, since the last time before `t` that `q`
happened. -/
noncomputable def countSince (p q : ℕ → Prop) : ℕ → ℕ
  | 0 => if p 0 then 1 else 0
  | t + 1 => (if q t then 0 else countSince p q t) + if p (t + 1) then 1 else 0

variable {p q p' q' : ℕ → Prop} {t : ℕ}

theorem countSince_zero [Decidable (p 0)] : countSince p q 0 = if p 0 then 1 else 0 := by
  rw [countSince]
  congr

theorem countSince_succ [Decidable (q t)] [Decidable (p (t + 1))] :
    countSince p q (t + 1) =
      (if q t then 0 else countSince p q t) + if p (t + 1) then 1 else 0 := by
  rw [countSince]
  congr

theorem countSince_congr (hp : ∀ u, p u ↔ p' u) (hq : ∀ s, q s ↔ q' s) :
    countSince p q t = countSince p' q' t := by
  rw [show p = p' from funext fun u => propext (hp u),
    show q = q' from funext fun s => propext (hq s)]

theorem countSince_pos_iff :
    1 ≤ countSince p q t ↔ ∃ u, u ≤ t ∧ p u ∧ ∀ s < t, q s → s < u := by
  induction t with
  | zero =>
    rw [countSince]
    by_cases hp : p 0
    · rw [if_pos hp]
      exact ⟨fun _ => ⟨0, Nat.le_refl 0, hp, fun s hs => by omega⟩, fun _ => Nat.le_refl 1⟩
    · rw [if_neg hp]
      refine ⟨fun h => by omega, ?_⟩
      rintro ⟨u, hu, hpu, -⟩
      obtain rfl : u = 0 := by omega
      exact absurd hpu hp
  | succ t ih =>
    rw [countSince]
    by_cases hp : p (t + 1)
    · rw [if_pos hp]
      exact ⟨fun _ => ⟨t + 1, Nat.le_refl _, hp, fun s hs _ => hs⟩, fun _ => by omega⟩
    · rw [if_neg hp, Nat.add_zero]
      by_cases hq : q t
      · -- the count has just been cleared
        rw [if_pos hq]
        refine ⟨fun h => by omega, ?_⟩
        rintro ⟨u, hu, hpu, hlast⟩
        have htu := hlast t (Nat.lt_succ_self t) hq
        obtain rfl : u = t + 1 := by omega
        exact absurd hpu hp
      · rw [if_neg hq, ih]
        constructor
        · rintro ⟨u, hu, hpu, hlast⟩
          refine ⟨u, by omega, hpu, fun s hs hqs => ?_⟩
          rcases Nat.lt_succ_iff_lt_or_eq.mp hs with hlt | rfl
          · exact hlast s hlt hqs
          · exact absurd hqs hq
        · rintro ⟨u, hu, hpu, hlast⟩
          have hne : u ≠ t + 1 := by
            rintro rfl
            exact hp hpu
          exact ⟨u, by omega, hpu, fun s hs => hlast s (by omega)⟩

/-- As long as `q` has not happened, everything is counted. -/
theorem countSince_of_quiet (hquiet : ∀ s < t, ¬ q s) {l : List Bool}
    (hl : ∀ u, p u ↔ l[u]? = some true) : countSince p q t = (l.take (t + 1)).count true := by
  have hone : ∀ u : ℕ, (if l[u]? = some true then 1 else 0) = (l[u]?.toList).count true := by
    intro u
    rcases l[u]? with _ | _ | _ <;> rfl
  induction t with
  | zero =>
    rw [countSince, List.take_add_one, List.take_zero, List.nil_append, ← hone]
    simp only [hl]
  | succ t ih =>
    rw [countSince, if_neg (hquiet t (Nat.lt_succ_self t)), ih fun s hs => hquiet s (by omega),
      List.take_add_one (l := l) (i := t + 1), List.count_append, ← hone]
    simp only [hl]

/-- The last event before a position, if there is one. -/
theorem exists_last_before (h : ∃ s, s < t ∧ p s) :
    ∃ s, s < t ∧ p s ∧ ∀ k, s < k → k < t → ¬ p k := by
  induction t with
  | zero =>
    obtain ⟨s, hs, -⟩ := h
    omega
  | succ t ih =>
    by_cases hp : p t
    · exact ⟨t, Nat.lt_succ_self t, hp, fun k htk hkt => by omega⟩
    · obtain ⟨s, hs, hps⟩ := h
      have hne : s ≠ t := by
        rintro rfl
        exact hp hps
      obtain ⟨r, hr, hpr, hlast⟩ := ih ⟨s, by omega, hps⟩
      refine ⟨r, by omega, hpr, fun k hrk hkt => ?_⟩
      rcases Nat.lt_succ_iff_lt_or_eq.mp hkt with hlt | rfl
      · exact hlast k hrk hlt
      · exact hp

end LoccFirmware.Automata
