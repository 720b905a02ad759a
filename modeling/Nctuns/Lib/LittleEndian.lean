import Mathlib.Algebra.Order.Ring.Int
import Mathlib.Data.List.Basic

/-!
# Little-endian words

A word of `k` bytes with the least significant byte first.
-/

namespace LittleEndian

/-- The `k` low bytes of `n`. -/
def bytes : Nat → Nat → List UInt8
  | 0, _ => []
  | k + 1, n => UInt8.ofNat n :: bytes k (n / 256)

/-- The number that bytes stand for, the lowest first. -/
def value : List UInt8 → Nat
  | [] => 0
  | b :: l => b.toNat + 256 * value l

@[simp] theorem length_bytes (k n : Nat) : (bytes k n).length = k := by
  induction k generalizing n with
  | zero => rfl
  | succ k ih => rw [bytes, List.length_cons, ih]

theorem value_bytes {k n : Nat} (h : n < 256 ^ k) : value (bytes k n) = n := by
  induction k generalizing n with
  | zero =>
    obtain rfl : n = 0 := Nat.lt_one_iff.1 h
    rfl
  | succ k ih =>
    have hdiv : n / 256 < 256 ^ k := Nat.div_lt_of_lt_mul (by rw [Nat.mul_comm, ← Nat.pow_succ]; exact h)
    show (UInt8.ofNat n).toNat + 256 * value (bytes k (n / 256)) = n
    rw [ih hdiv, UInt8.toNat_ofNat']
    exact Nat.mod_add_div n 256

theorem bytes_value (l : List UInt8) : bytes l.length (value l) = l := by
  induction l with
  | nil => rfl
  | cons b l ih =>
    have hmod : (b.toNat + 256 * value l) % 256 = b.toNat := by
      rw [Nat.add_mul_mod_self_left, Nat.mod_eq_of_lt (UInt8.toNat_lt b)]
    have hdiv : (b.toNat + 256 * value l) / 256 = value l := by
      rw [Nat.add_mul_div_left _ _ (by decide), Nat.div_eq_of_lt (UInt8.toNat_lt b), Nat.zero_add]
    have hhead : UInt8.ofNat (b.toNat + 256 * value l) = b :=
      UInt8.toNat_inj.1 (by rw [UInt8.toNat_ofNat', hmod])
    show UInt8.ofNat (b.toNat + 256 * value l) :: bytes l.length ((b.toNat + 256 * value l) / 256) = _
    rw [hdiv, ih, hhead]

theorem value_lt (l : List UInt8) : value l < 256 ^ l.length := by
  induction l with
  | nil => exact Nat.one_pos
  | cons b l ih =>
    have hb := UInt8.toNat_lt b
    show b.toNat + 256 * value l < 256 ^ (l.length + 1)
    rw [Nat.pow_succ]
    omega

/-- The word of `k` bytes at the front, and the bytes behind it. -/
def read (k : Nat) (l : List UInt8) : Option (Nat × List UInt8) :=
  if k ≤ l.length then some (value (l.take k), l.drop k) else none

theorem read_bytes {k n : Nat} (h : n < 256 ^ k) (rest : List UInt8) :
    read k (bytes k n ++ rest) = some (n, rest) := by
  have hlen := length_bytes k n
  rw [read, if_pos (by simp), List.take_left' hlen, List.drop_left' hlen, value_bytes h]

end LittleEndian
