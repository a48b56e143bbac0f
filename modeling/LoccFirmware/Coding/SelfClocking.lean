import LoccFirmware.Coding.Biphase

/-!
# Clock Recovery from the Biphase Code

A receiver without a clock line has to find the bit boundaries in the levels
themselves.  The biphase code gives it three things to hold on to: the level changes
in the middle of every bit, both levels take up the same time, and the line never
rests for more than two half-bits, wherever the observation starts.

The bound on the resting time follows from the changes alone: of any three half-bits
in a row, two form one bit.

## Main results

- `encode_selfClocking`: every encoded line is self-clocking
- `encode_octets_eq_iff`: two lines that carry octets are equal exactly when the
  numbers agree modulo 256
-/

namespace LoccFirmware.Coding

variable {L : Type*}

/-! ## Self-clocking lines -/

/-- Two levels differ in the middle of each of the `bits` bits. -/
def Clocked (bits : ℕ) (levels : List L) : Prop :=
  ∀ k < bits, levels[2 * k]? ≠ levels[2 * k + 1]?

/-- What a receiver needs to follow `bits` bits on a line. -/
structure SelfClocking [BEq L] (hi lo : L) (bits : ℕ) (levels : List L) : Prop where
  length : levels.length = 2 * bits
  symbols : ∀ x ∈ levels, x = hi ∨ x = lo
  clocked : Clocked bits levels
  balanced : levels.count hi = levels.count lo
  runs : ∀ n x, List.replicate n x <:+: levels → n ≤ 2

/-- A line that changes in the middle of every bit never rests for three half-bits. -/
theorem Clocked.runs {bits : ℕ} {levels : List L} (hclock : Clocked bits levels)
    (hlen : levels.length = 2 * bits) {n : ℕ} {x : L} (hrun : List.replicate n x <:+: levels) :
    n ≤ 2 := by
  obtain ⟨before, after, hsplit⟩ := hrun
  by_contra hlong
  have hlength : before.length + n + after.length = 2 * bits := by
    rw [← hlen, ← hsplit, List.length_append, List.length_append, List.length_replicate]
  have hrest (i : ℕ) (hfrom : before.length ≤ i) (hto : i < before.length + n) :
      levels[i]? = some x := by
    rw [← hsplit, List.getElem?_append_left (by simpa using hto),
      List.getElem?_append_right hfrom, List.getElem?_replicate, if_pos (by omega)]
  -- the first whole bit inside the run
  apply hclock ((before.length + 1) / 2) (by omega)
  rw [hrest _ (by omega) (by omega), hrest _ (by omega) (by omega)]

/-! ## Encoded lines -/

theorem encode_length (hi lo : L) (bits : List Bool) :
    (encode hi lo bits).length = 2 * bits.length := by
  induction bits with
  | nil => rfl
  | cons b bits ih =>
    rw [encode_cons, List.length_append, ih, List.length_cons]
    cases b <;> simp only [encodeBit, List.length_cons, List.length_nil] <;> omega

/-- The two half-bits of bit `k` are found at `2 * k` and `2 * k + 1`. -/
theorem encode_getElem? (hi lo : L) (bits : List Bool) (k : ℕ) :
    (encode hi lo bits)[2 * k]? = bits[k]?.map (fun b => if b then hi else lo) ∧
      (encode hi lo bits)[2 * k + 1]? = bits[k]?.map (fun b => if b then lo else hi) := by
  induction bits generalizing k with
  | nil => exact ⟨rfl, rfl⟩
  | cons b bits ih =>
    rw [encode_cons]
    cases k with
    | zero => cases b <;> exact ⟨rfl, rfl⟩
    | succ k => cases b <;> exact ih k

theorem encode_clocked {hi lo : L} (hne : hi ≠ lo) (bits : List Bool) :
    Clocked bits.length (encode hi lo bits) := by
  intro k hk
  obtain ⟨hfirst, hsecond⟩ := encode_getElem? hi lo bits k
  rw [hfirst, hsecond, List.getElem?_eq_getElem hk, Option.map_some, Option.map_some]
  intro heq
  cases hbit : bits[k] with
  | true => exact hne (by simpa [hbit] using heq)
  | false => exact hne (by simpa [hbit] using heq.symm)

theorem encode_symbols (hi lo : L) (bits : List Bool) {x : L} (hx : x ∈ encode hi lo bits) :
    x = hi ∨ x = lo := by
  obtain ⟨b, -, hb⟩ := List.mem_flatMap.mp hx
  cases b with
  | true => simpa [encodeBit] using hb
  | false => simpa [encodeBit, or_comm] using hb

/-- Every bit adds one half-bit to each level, so no direct current builds up. -/
theorem encode_balanced [DecidableEq L] {hi lo : L} (hne : hi ≠ lo) (bits : List Bool) :
    (encode hi lo bits).count hi = (encode hi lo bits).count lo := by
  induction bits with
  | nil => rfl
  | cons b bits ih =>
    have hbit : (encodeBit hi lo b).count hi = (encodeBit hi lo b).count lo := by
      cases b <;> simp [encodeBit, hne, hne.symm]
    rw [encode_cons, List.count_append, List.count_append, hbit, ih]

/-- **Self-clocking**: every encoded line can be followed by a receiver. -/
theorem encode_selfClocking [DecidableEq L] {hi lo : L} (hne : hi ≠ lo) (bits : List Bool) :
    SelfClocking hi lo bits.length (encode hi lo bits) where
  length := encode_length hi lo bits
  symbols _ := encode_symbols hi lo bits
  clocked := encode_clocked hne bits
  balanced := encode_balanced hne bits
  runs _ _ := (encode_clocked hne bits).runs (encode_length hi lo bits)

/-! ## Lines that carry octets -/

@[simp] theorem msbFirst_length (w n : ℕ) : (msbFirst w n).length = w := by
  induction w with
  | zero => rfl
  | succ w ih => rw [msbFirst, List.length_cons, ih]

theorem flatMap_msbFirst_length (w : ℕ) (ns : List ℕ) :
    (ns.flatMap (msbFirst w)).length = w * ns.length := by
  induction ns with
  | nil => rfl
  | cons n ns ih =>
    rw [List.flatMap_cons, List.length_append, msbFirst_length, ih, List.length_cons]
    ring

/-- The `w` low bits do not see what lies above them. -/
theorem msbFirst_mod (w v n : ℕ) (hwv : w ≤ v) : msbFirst w (n % 2 ^ v) = msbFirst w n := by
  induction w with
  | zero => rfl
  | succ w ih =>
    rw [msbFirst, msbFirst, ih (by omega), Nat.testBit_mod_two_pow, decide_eq_true (by omega),
      Bool.true_and]

theorem flatMap_msbFirst_mod (ns : List ℕ) :
    (ns.map (· % 256)).flatMap (msbFirst 8) = ns.flatMap (msbFirst 8) := by
  rw [List.flatMap_map]
  congr 1
  funext n
  exact msbFirst_mod 8 8 n (Nat.le_refl 8)

/-- **Faithful modulo 256**: the line shows the low octets and nothing else. -/
theorem encode_octets_eq_iff [DecidableEq L] {hi lo : L} (hne : hi ≠ lo) (ms ns : List ℕ) :
    encode hi lo (ms.flatMap (msbFirst 8)) = encode hi lo (ns.flatMap (msbFirst 8)) ↔
      ms.map (· % 256) = ns.map (· % 256) := by
  constructor
  · -- equal lines are received as the same numbers
    intro hline
    have hread := congrArg (receive hi lo) hline
    rw [receive_encode_octets hne, receive_encode_octets hne] at hread
    exact Option.some.inj hread
  · intro hmod
    rw [← flatMap_msbFirst_mod ms, hmod, flatMap_msbFirst_mod]

end LoccFirmware.Coding
