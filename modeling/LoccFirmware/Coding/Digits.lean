import Mathlib.Data.Nat.Digits.Defs

/-!
# Numbers Read and Written Digit by Digit

A number that is read one digit at a time, lowest first, may change on the way.  What is
put together then has its low digits from before the change and its high digits from
after it.  This file says which number that is, in any base, and when a countdown that
takes one step on the way is mistaken for zero.

A number that is written one digit at a time over a small one may change on the way too.
Written lowest digit first, it loses nothing but what was counted down meanwhile.
-/

namespace LoccFirmware.Coding

/-- Digit `i` of a number, counted from the lowest. -/
def digit (b n i : ℕ) : ℕ :=
  n / b ^ i % b

/-- Consecutive digits, put together, are a quotient's remainder. -/
theorem ofDigits_digits (b n start count : ℕ) :
    Nat.ofDigits b ((List.range' start count).map (digit b n)) = n / b ^ start % b ^ count := by
  induction count generalizing start with
  | zero => simp [Nat.mod_one]
  | succ count ih =>
    -- the lowest of the digits, and the others as those of the number without it
    rw [List.range'_succ, List.map_cons, Nat.ofDigits_cons, ih, digit,
      pow_succ b start, pow_succ' b count, Nat.mod_mul, Nat.div_div_eq_div_mul]

/-- The number read when it changes from `n` to `n'` after `k` digits. -/
theorem ofDigits_changed (b n n' k m : ℕ) :
    Nat.ofDigits b ((List.range' 0 k).map (digit b n) ++ (List.range' k m).map (digit b n')) =
      n % b ^ k + b ^ k * (n' / b ^ k % b ^ m) := by
  rw [Nat.ofDigits_append, ofDigits_digits, ofDigits_digits, List.length_map, List.length_range',
    pow_zero, Nat.div_one]

/-- **A torn countdown**: if a number of `k + m` digits is counted down by one after the
    first `k` of them were read, the reader finds zero when it was zero, and also when it
    was `b ^ k`, whose low digits are zero before the borrow and whose high ones are
    after it. -/
theorem ofDigits_countdown_eq_zero_iff {b n k m : ℕ} (hb : 0 < b) (hn : n < b ^ (k + m)) :
    Nat.ofDigits b
        ((List.range' 0 k).map (digit b n) ++ (List.range' k m).map (digit b (n - 1))) = 0 ↔
      n = 0 ∨ n = b ^ k := by
  have hpos : 0 < b ^ k := Nat.pow_pos hb
  rw [ofDigits_changed, Nat.add_eq_zero_iff]
  constructor
  · rintro ⟨hlow, hhigh⟩
    -- the high digits are those of `n - 1`, so there is nothing above `b ^ k`
    have hsmall : (n - 1) / b ^ k < b ^ m := by
      rw [Nat.div_lt_iff_lt_mul hpos, ← pow_add, Nat.add_comm m k]
      omega
    have hquot : (n - 1) / b ^ k = 0 := by
      rw [Nat.mod_eq_of_lt hsmall] at hhigh
      exact (Nat.mul_eq_zero.mp hhigh).resolve_left (Nat.ne_of_gt hpos)
    have hle : n - 1 < b ^ k := (Nat.div_eq_zero_iff_lt hpos).mp hquot
    rcases Nat.lt_or_ge n (b ^ k) with hlt | hge
    · rw [Nat.mod_eq_of_lt hlt] at hlow
      exact Or.inl hlow
    · exact Or.inr (by omega)
  · rintro (rfl | rfl)
    · simp
    · rw [Nat.mod_self, Nat.div_eq_of_lt (Nat.sub_lt hpos Nat.one_pos)]
      simp

/-! ## Writing -/

/-- A number with one digit replaced. -/
def setDigit (b n i d : ℕ) : ℕ :=
  n - digit b n i * b ^ i + d * b ^ i

theorem ofDigits_set_add (b d : ℕ) (ds : List ℕ) {i : ℕ} (hi : i < ds.length) :
    Nat.ofDigits b (ds.set i d) + ds[i] * b ^ i = Nat.ofDigits b ds + d * b ^ i := by
  induction ds generalizing i with
  | nil => exact absurd hi (Nat.not_lt_zero i)
  | cons a ds ih =>
    cases i with
    | zero =>
      simp only [List.set_cons_zero, Nat.ofDigits_cons, List.getElem_cons_zero, pow_zero,
        Nat.mul_one]
      omega
    | succ i =>
      have hrest := congrArg (b * ·) (ih (Nat.lt_of_succ_lt_succ hi))
      have hshift (x : ℕ) : x * b ^ (i + 1) = b * (x * b ^ i) := by
        rw [pow_succ', Nat.mul_left_comm]
      simp only [Nat.mul_add] at hrest
      simp only [List.set_cons_succ, Nat.ofDigits_cons, List.getElem_cons_succ, hshift]
      omega

/-- The digits of a number with one of them replaced, put together. -/
theorem ofDigits_set {b n m i : ℕ} (d : ℕ) (hn : n < b ^ m) (hi : i < m) :
    Nat.ofDigits b (((List.range' 0 m).map (digit b n)).set i d) = setDigit b n i d := by
  have hlen : i < ((List.range' 0 m).map (digit b n)).length := by simpa using hi
  have hset := ofDigits_set_add b d ((List.range' 0 m).map (digit b n)) hlen
  have hget : ((List.range' 0 m).map (digit b n))[i] = digit b n i := by simp
  rw [hget, ofDigits_digits, pow_zero, Nat.div_one, Nat.mod_eq_of_lt hn] at hset
  have hle : digit b n i * b ^ i ≤ n :=
    Nat.le_trans (Nat.mul_le_mul_right _ (Nat.mod_le _ _)) (Nat.div_mul_le_self n (b ^ i))
  rw [setDigit]
  omega

/-- What stands in the place of a one-digit number when the `k` lowest digits of `n` have
been written over it and it was counted down at most `steps` times on the way. -/
structure Written (b n k steps v : ℕ) : Prop where
  small : v < b ^ max k 1
  le : 0 < k → v ≤ n % b ^ k
  ge : 0 < k → n % b ^ k ≤ v + steps

namespace Written

variable {b n k steps v : ℕ}

/-- Nothing is written yet. -/
theorem zero (h : v < b) : Written b n 0 0 v where
  small := by simpa using h
  le hk := absurd hk (Nat.lt_irrefl 0)
  ge hk := absurd hk (Nat.lt_irrefl 0)

/-- One step of the countdown. -/
theorem countdown (h : Written b n k steps v) : Written b n k (steps + 1) (v - 1) where
  small := Nat.lt_of_le_of_lt (Nat.sub_le v 1) h.small
  le hk := Nat.le_trans (Nat.sub_le v 1) (h.le hk)
  ge hk := by
    have hge := h.ge hk
    omega

/-- The next digit: above those that are written there is nothing but zeros. -/
theorem write (h : Written b n k steps v) (hb : 0 < b) :
    Written b n (k + 1) steps (setDigit b v k (digit b n k)) := by
  have hmod : n % b ^ (k + 1) = n % b ^ k + digit b n k * b ^ k := by
    rw [Nat.mod_pow_succ, digit, Nat.mul_comm]
  have hlt : n % b ^ (k + 1) < b ^ (k + 1) := Nat.mod_lt _ (Nat.pow_pos hb)
  have hwidth : max (k + 1) 1 = k + 1 := Nat.max_eq_left (Nat.succ_pos k)
  rcases Nat.eq_zero_or_pos k with rfl | hk
  · -- the first digit replaces all there was
    have hsmall : v < b := by simpa using h.small
    have hv : digit b v 0 * b ^ 0 = v := by
      rw [digit, pow_zero, Nat.div_one, Nat.mul_one, Nat.mod_eq_of_lt hsmall]
    have hnew : setDigit b v 0 (digit b n 0) = n % b ^ (0 + 1) := by
      rw [setDigit, hv, hmod, pow_zero, Nat.mod_one, Nat.sub_self]
    rw [hnew]
    exact ⟨by rwa [hwidth], fun _ => Nat.le_refl _, fun _ => Nat.le_add_right _ _⟩
  · have hsmall : v < b ^ k := by
      have hlt := h.small
      rwa [Nat.max_eq_left hk] at hlt
    have hv : digit b v k = 0 := by
      rw [digit, Nat.div_eq_of_lt hsmall, Nat.zero_mod]
    have hnew : setDigit b v k (digit b n k) = v + digit b n k * b ^ k := by
      rw [setDigit, hv, Nat.zero_mul, Nat.sub_zero]
    have hle := h.le hk
    have hge := h.ge hk
    rw [hnew]
    refine ⟨?_, fun _ => ?_, fun _ => ?_⟩
    · rw [hwidth]
      refine Nat.lt_of_le_of_lt ?_ hlt
      omega
    · omega
    · omega

/-- **A countdown during a write**: once all digits are written, lowest first, the number
    has lost no more than it was counted down. -/
theorem bounds (h : Written b n k steps v) (hn : n < b ^ k) (hk : 0 < k) :
    v ≤ n ∧ n ≤ v + steps := by
  have hle := h.le hk
  have hge := h.ge hk
  rw [Nat.mod_eq_of_lt hn] at hle hge
  exact ⟨hle, hge⟩

end Written

end LoccFirmware.Coding
