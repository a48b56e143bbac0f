import Mathlib.Data.List.Basic
import Mathlib.Data.Nat.Bits
import Mathlib.Tactic.Ring

/-!
# Biphase Line Code

A line code that sends every bit as two half-bits of opposite level: `1` as
high, low and `0` as low, high.  The levels are two distinct symbols of an
arbitrary type, so a line may have further states that no code word uses.

## Main definitions

- `encode`, `decode`: bits to half-bits and back
- `msbFirst`: the low bits of a number, most significant first
- `decodeOctets`, `receive`: eight bits to a number, and a whole line to numbers

## Main results

- `decode_encode`: what was encoded is decoded
- `receive_encode_octets`: a line that carries numbers octet by octet is read back
  as these numbers modulo 256
-/

namespace LoccFirmware.Coding

variable {L : Type*}

/-! ## Half-bits -/

/-- The two half-bits of one bit. -/
def encodeBit (hi lo : L) : Bool → List L
  | true => [hi, lo]
  | false => [lo, hi]

/-- The half-bits of a list of bits. -/
def encode (hi lo : L) (bits : List Bool) : List L :=
  bits.flatMap (encodeBit hi lo)

@[simp] theorem encode_nil (hi lo : L) : encode hi lo [] = [] := rfl

theorem encode_cons (hi lo : L) (b : Bool) (bits : List Bool) :
    encode hi lo (b :: bits) = encodeBit hi lo b ++ encode hi lo bits := rfl

theorem encode_append (hi lo : L) (as bs : List Bool) :
    encode hi lo (as ++ bs) = encode hi lo as ++ encode hi lo bs := by
  simp [encode]

/-- Read consecutive pairs of levels: high, low is `1`, low, high is `0`; every other
pair and an odd rest are rejected. -/
def decode [DecidableEq L] (hi lo : L) : List L → Option (List Bool)
  | [] => some []
  | [_] => none
  | x :: y :: rest =>
    if x = hi ∧ y = lo then (true :: ·) <$> decode hi lo rest
    else if x = lo ∧ y = hi then (false :: ·) <$> decode hi lo rest
    else none

/-- **Round trip**: what was encoded is decoded. -/
theorem decode_encode [DecidableEq L] {hi lo : L} (hne : hi ≠ lo) (bits : List Bool) :
    decode hi lo (encode hi lo bits) = some bits := by
  induction bits with
  | nil => rfl
  | cons b bits ih =>
    rw [encode_cons]
    cases b with
    | true => simp [encodeBit, decode, ih]
    | false => simp [encodeBit, decode, ih, hne.symm]

/-! ## Octets -/

/-- The `w` low bits of a number, most significant first. -/
def msbFirst : ℕ → ℕ → List Bool
  | 0, _ => []
  | w + 1, n => n.testBit w :: msbFirst w n

/-- The number a list of bits stands for, most significant bit first. -/
def bigEndian (bits : List Bool) : ℕ :=
  bits.foldl (fun acc b => 2 * acc + b.toNat) 0

private theorem foldl_msbFirst (w n acc : ℕ) :
    (msbFirst w n).foldl (fun acc b => 2 * acc + b.toNat) acc = acc * 2 ^ w + n % 2 ^ w := by
  induction w generalizing acc with
  | zero => simp [msbFirst, Nat.mod_one]
  | succ w ih =>
    -- the leading bit is the quotient by `2 ^ w`, the others are the remainder
    rw [msbFirst, List.foldl_cons, ih, Nat.toNat_testBit, Nat.mod_pow_succ, pow_succ]
    ring

theorem bigEndian_msbFirst (w n : ℕ) : bigEndian (msbFirst w n) = n % 2 ^ w := by
  rw [bigEndian, foldl_msbFirst]
  simp

/-- Read bits in groups of eight, most significant first; an incomplete group is rejected. -/
def decodeOctets : List Bool → Option (List ℕ)
  | [] => some []
  | b₇ :: b₆ :: b₅ :: b₄ :: b₃ :: b₂ :: b₁ :: b₀ :: rest =>
    (bigEndian [b₇, b₆, b₅, b₄, b₃, b₂, b₁, b₀] :: ·) <$> decodeOctets rest
  | _ => none

theorem decodeOctets_msbFirst_append (n : ℕ) (rest : List Bool) :
    decodeOctets (msbFirst 8 n ++ rest) = (n % 256 :: ·) <$> decodeOctets rest := by
  have hbits := bigEndian_msbFirst 8 n
  simp only [msbFirst] at hbits
  simp only [msbFirst, List.cons_append, List.nil_append, decodeOctets, hbits]
  rfl

/-- What a receiver makes of the levels on the line. -/
def receive [DecidableEq L] (hi lo : L) (levels : List L) : Option (List ℕ) :=
  (decode hi lo levels).bind decodeOctets

/-- **Octet round trip**: numbers sent as eight bits each arrive modulo 256. -/
theorem receive_encode_octets [DecidableEq L] {hi lo : L} (hne : hi ≠ lo) (ns : List ℕ) :
    receive hi lo (encode hi lo (ns.flatMap (msbFirst 8))) = some (ns.map (· % 256)) := by
  rw [receive, decode_encode hne, Option.bind_some]
  induction ns with
  | nil => rfl
  | cons n ns ih => rw [List.flatMap_cons, decodeOctets_msbFirst_append, ih]; rfl

end LoccFirmware.Coding
