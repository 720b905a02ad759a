import Nctuns.Engine.Random

/-!
# Proofs about random numbers

Modulo `2 ^ 31 - 1` a number is its low 31 bits plus the rest. Of the product of the multiplier and a
seed the two parts are computed without the product, and their sum is taken down by the modulus once.
-/

namespace Engine.Generator

variable {w : ℕ} {s : BitVec w}

/-! ### The two products -/

theorem pow_le_pow_width (hw : 32 ≤ w) : 2 ^ 32 ≤ 2 ^ w := Nat.pow_le_pow_right (by decide) hw

theorem toNat_A (hw : 32 ≤ w) : (A : BitVec w).toNat = 16807 := by
  have := pow_le_pow_width hw
  rw [A, BitVec.toNat_ofNat, Nat.mod_eq_of_lt (by omega)]

theorem toNat_M (hw : 32 ≤ w) : (M : BitVec w).toNat = 2147483647 := by
  have := pow_le_pow_width hw
  rw [M, BitVec.toNat_ofNat, Nat.mod_eq_of_lt (by omega)]

/-- A number below `2 ^ 31` is not negative. -/
theorem toNat_sshiftRight (hw : 32 ≤ w) (hs : s.toNat < 2 ^ 31) (k : ℕ) :
    (s.sshiftRight k).toNat = s.toNat / 2 ^ k := by
  have hmsb : s.msb = false := by
    have := Nat.pow_le_pow_right (show 0 < 2 by decide) (show 31 ≤ w - 1 by omega)
    rw [BitVec.msb_eq_false_iff_two_mul_lt]
    have hsucc : 2 ^ w = 2 * 2 ^ (w - 1) := by
      rw [← Nat.pow_succ', Nat.succ_eq_add_one, Nat.sub_add_cancel (by omega)]
    omega
  rw [BitVec.sshiftRight_eq_of_msb_false hmsb, BitVec.toNat_ushiftRight, Nat.shiftRight_eq_div_pow]

theorem toNat_lowProduct (hw : 32 ≤ w) (s : BitVec w) :
    (lowProduct s).toNat = 16807 * (s.toNat % 2 ^ 16) := by
  have := pow_le_pow_width hw
  have hmask : (s &&& 0xffff#w).toNat = s.toNat % 2 ^ 16 := by
    rw [BitVec.toNat_and, BitVec.toNat_ofNat, Nat.mod_eq_of_lt (show 0xffff < 2 ^ w by omega)]
    exact Nat.and_two_pow_sub_one_eq_mod _ 16
  rw [lowProduct, BitVec.toNat_mul, toNat_A hw, hmask]
  exact Nat.mod_eq_of_lt (by omega)

theorem toNat_highProduct (hw : 32 ≤ w) (hs : s.toNat < 2 ^ 31) :
    (highProduct s).toNat = 16807 * (s.toNat / 2 ^ 16) := by
  have := pow_le_pow_width hw
  rw [highProduct, BitVec.toNat_mul, toNat_A hw, toNat_sshiftRight hw hs]
  exact Nat.mod_eq_of_lt (by omega)

/-! ### A call -/

theorem toInt_eq_toNat (hw : 32 ≤ w) (hs : s.toNat < 2 ^ 31) : s.toInt = s.toNat := by
  have := pow_le_pow_width hw
  rw [BitVec.toInt_eq_toNat_bmod, Int.bmod_eq_of_le_mul_two (by omega) (by omega)]

theorem toInt_M (hw : 32 ≤ w) : (M : BitVec w).toInt = 2147483647 := by
  rw [toInt_eq_toNat hw (by rw [toNat_M hw]; decide), toNat_M hw]
  rfl

/-- The low 31 bits of the product. -/
def lowBits (n : ℕ) : ℕ := 16807 * (n / 2 ^ 16) % 2 ^ 15 * 2 ^ 16 + 16807 * (n % 2 ^ 16)

/-- The rest of it. -/
def highBits (n : ℕ) : ℕ := 16807 * (n / 2 ^ 16) / 2 ^ 15

/-- The parts make up the product, the low one with its carry. -/
theorem bits_eq (n : ℕ) : highBits n * 2 ^ 31 + lowBits n = 16807 * n := by
  unfold highBits lowBits
  omega

theorem lowBits_le (n : ℕ) : lowBits n ≤ 3248864857 := by
  have hcarry := Nat.mod_lt (16807 * (n / 2 ^ 16)) (show 0 < 2 ^ 15 by decide)
  have hlow := Nat.mod_lt n (show 0 < 2 ^ 16 by decide)
  unfold lowBits
  generalize 16807 * (n / 2 ^ 16) % 2 ^ 15 = a at hcarry ⊢
  generalize n % 2 ^ 16 = b at hlow ⊢
  omega

theorem highBits_le {n : ℕ} (hn : n < 2 ^ 31) : highBits n ≤ 16806 := by
  have hhigh : n / 2 ^ 16 < 2 ^ 15 := Nat.div_lt_of_lt_mul hn
  unfold highBits
  generalize n / 2 ^ 16 = a at hhigh ⊢
  omega

theorem toNat_lowBits (hw : 32 ≤ w) (hs : s.toNat < 2 ^ 31) :
    (((highProduct s &&& 0x7fff#w) <<< 16) + lowProduct s).toNat = lowBits s.toNat := by
  have := pow_le_pow_width hw
  have hmask : (highProduct s &&& 0x7fff#w).toNat = 16807 * (s.toNat / 2 ^ 16) % 2 ^ 15 := by
    rw [BitVec.toNat_and, BitVec.toNat_ofNat, Nat.mod_eq_of_lt (show 0x7fff < 2 ^ w by omega),
      toNat_highProduct hw hs]
    exact Nat.and_two_pow_sub_one_eq_mod _ 15
  have hshift : ((highProduct s &&& 0x7fff#w) <<< 16).toNat =
      16807 * (s.toNat / 2 ^ 16) % 2 ^ 15 * 2 ^ 16 := by
    rw [BitVec.toNat_shiftLeft, hmask, Nat.shiftLeft_eq]
    exact Nat.mod_eq_of_lt (by omega)
  rw [BitVec.toNat_add, hshift, toNat_lowProduct hw]
  -- this is below `2 ^ 32`, though not below `2 ^ 31`
  exact Nat.mod_eq_of_lt (by omega)

/-- What is compared with zero is exact, also when the low bits with their carry do not fit in a `long`. -/
theorem toInt_reduced (hw : 32 ≤ w) (hs : s.toNat < 2 ^ 31) :
    (((highProduct s &&& 0x7fff#w) <<< 16) + lowProduct s - M + (highProduct s).sshiftRight 15).toInt =
      (lowBits s.toNat : ℤ) + highBits s.toNat - (2 ^ 31 - 1) := by
  have hpow := pow_le_pow_width hw
  have hprod := toNat_highProduct hw hs
  have hhigh : ((highProduct s).sshiftRight 15).toNat = highBits s.toNat := by
    rw [toNat_sshiftRight hw (by omega), hprod, highBits]
  have hlowle := lowBits_le s.toNat
  have hhighle := highBits_le hs
  have hlow : (((highProduct s &&& 0x7fff#w) <<< 16) + lowProduct s).toInt =
      Int.bmod (lowBits s.toNat) (2 ^ w) := by
    rw [BitVec.toInt_eq_toNat_bmod, toNat_lowBits hw hs]
  have hrest : ((highProduct s).sshiftRight 15).toInt = highBits s.toNat := by
    rw [toInt_eq_toNat hw (by omega), hhigh]
  have hassoc : Int.bmod (lowBits s.toNat) (2 ^ w) - 2147483647 + highBits s.toNat =
      Int.bmod (lowBits s.toNat) (2 ^ w) + (highBits s.toNat - 2147483647) := by omega
  rw [BitVec.toInt_add, BitVec.toInt_sub, Int.bmod_add_bmod, hlow, toInt_M hw, hrest, hassoc,
    Int.bmod_add_bmod, Int.bmod_eq_of_le_mul_two (by omega) (by omega)]
  omega

/-- The two parts add up to the product modulo `2 ^ 31 - 1`. -/
theorem recurrence_eq_parts (n : ℕ) :
    recurrence n = ((lowBits n : ℤ) + highBits n) % (2 ^ 31 - 1) := by
  have hbits := bits_eq n
  have hsum : 16807 * (n : ℤ) = (lowBits n : ℤ) + highBits n + (2 ^ 31 - 1) * highBits n := by
    omega
  rw [recurrence, hsum, Int.add_mul_emod_self_left]

/-- The modulus does not divide a multiple of a seed. -/
theorem recurrence_isSeed {n : ℤ} (h : IsSeed n) : IsSeed (recurrence n) := by
  have hcoprime : Int.gcd (2 ^ 31 - 1) 16807 = 1 := by decide
  have hne : 16807 * n % (2 ^ 31 - 1) ≠ 0 := by
    intro h0
    have hdvd := Int.dvd_of_dvd_mul_right_of_gcd_one (Int.dvd_of_emod_eq_zero h0) hcoprime
    exact absurd ((Int.le_of_dvd h.1 hdvd).trans h.2) (by decide)
  have hnonneg := Int.emod_nonneg (16807 * n) (show (2 ^ 31 - 1 : ℤ) ≠ 0 by decide)
  have hlt := Int.emod_lt_of_pos (16807 * n) (show (0 : ℤ) < 2 ^ 31 - 1 by decide)
  unfold IsSeed recurrence
  generalize 16807 * n % (2 ^ 31 - 1) = r at *
  omega

/-- **Step lemma.** -/
theorem toInt_Random (hw : 32 ≤ w) (h : IsSeed s.toInt) : (Random s).toInt = recurrence s.toInt := by
  have hpow := pow_le_pow_width hw
  have hs : s.toNat < 2 ^ 31 := by
    have hcond := BitVec.toInt_eq_toNat_cond s
    have h1 := h.1
    have h2 := h.2
    split at hcond
    · omega
    · have := s.isLt
      omega
  have hint := toInt_eq_toNat hw hs
  have hred := toInt_reduced hw hs
  have hnext := recurrence_isSeed h
  unfold Random
  rw [hint, recurrence_eq_parts] at hnext ⊢
  -- the sum of the two parts is below twice the modulus and not a multiple of it
  have hlowle := lowBits_le s.toNat
  have hhighle := highBits_le hs
  generalize lowBits s.toNat = low at *
  generalize highBits s.toNat = high at *
  dsimp only
  split
  · next hle =>
    rw [BitVec.sle_iff_toInt_le, hred, BitVec.toInt_zero] at hle
    have hne : (low : ℤ) + high ≠ 2 ^ 31 - 1 := by
      intro hM
      rw [hM, Int.emod_self] at hnext
      exact absurd hnext.1 (by decide)
    rw [BitVec.toInt_add, hred, toInt_M hw, Int.bmod_eq_of_le_mul_two (by omega) (by omega),
      Int.emod_eq_of_lt (by omega) (by omega)]
    omega
  · next hle =>
    rw [BitVec.sle_iff_toInt_le, hred, BitVec.toInt_zero] at hle
    rw [hred, Int.emod_eq_sub_self_emod, Int.emod_eq_of_lt (by omega) (by omega)]

/-! ### Calls -/

/-- **Run lemma.** -/
theorem map_returned (hw : 32 ≤ w) (n : ℕ) (h : IsSeed s.toInt) :
    (returned n s).map BitVec.toInt = (List.range n).map fun i => recurrence^[i + 1] s.toInt := by
  induction n generalizing s with
  | zero => rfl
  | succ n ih =>
    have hnext : IsSeed (Random s).toInt := by
      rw [toInt_Random hw h]
      exact recurrence_isSeed h
    rw [returned, List.map_cons, ih hnext, List.range_succ_eq_map, List.map_cons, List.map_map,
      toInt_Random hw h]
    rfl

theorem iterate_isSeed {n : ℤ} (h : IsSeed n) (i : ℕ) : IsSeed (recurrence^[i] n) := by
  induction i with
  | zero => exact h
  | succ i ih =>
    rw [Function.iterate_succ_apply']
    exact recurrence_isSeed ih

/-- **Random numbers.** Whether a `long` has 32 or 64 bits, the calls return the documented sequence, and
    each of its numbers is a seed again. -/
theorem returned_recurrence (hw : w = 32 ∨ w = 64) (seed_ : BitVec w) (h : IsSeed seed_.toInt) (n : ℕ) :
    (returned n seed_).map BitVec.toInt = ((List.range n).map fun i => recurrence^[i + 1] seed_.toInt) ∧
      ∀ s ∈ returned n seed_, IsSeed s.toInt ∧ s ≠ 0#w := by
  have hw : 32 ≤ w := by omega
  have hmap := map_returned hw n h
  refine ⟨hmap, fun s hs => ?_⟩
  have hseed : IsSeed s.toInt := by
    obtain ⟨i, -, hi⟩ := List.mem_map.1 (hmap ▸ List.mem_map_of_mem hs)
    rw [← hi]
    exact iterate_isSeed h (i + 1)
  refine ⟨hseed, ?_⟩
  rintro rfl
  have := hseed.1
  rw [BitVec.toInt_zero] at this
  omega

/-- The first three numbers of the seed 1. -/
theorem returned_recurrence_one :
    (returned 3 1#32).map BitVec.toInt = [16807, 282475249, 1622650073] ∧
      (returned 3 1#64).map BitVec.toInt = [16807, 282475249, 1622650073] := by
  have h32 := (returned_recurrence (.inl rfl) 1#32 (by decide) 3).1
  have h64 := (returned_recurrence (.inr rfl) 1#64 (by decide) 3).1
  exact ⟨h32.trans (by decide), h64.trans (by decide)⟩

end Engine.Generator
