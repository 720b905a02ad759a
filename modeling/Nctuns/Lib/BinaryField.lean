import Mathlib.FieldTheory.Finite.GaloisField
import Mathlib.GroupTheory.OrderOfElement
import Mathlib.RingTheory.AdjoinRoot

/-!
# Arithmetic of binary fields on words

Bit `i` of a word stands for the power `α ^ i` of a root of a polynomial `p`, which is a word itself. Words
are added by exclusive or and multiplied by shifts. So what can be computed with words holds in every
ring of characteristic two that has a root of `p`: with a few such computations `p` is seen to be
primitive.
-/

namespace BinaryField

variable {R : Type*} [CommRing R] {α : R} {m p v w : ℕ}

/-- The element that a word stands for. -/
def val (α : R) (v : ℕ) : R :=
  if v = 0 then 0 else (if v % 2 = 1 then 1 else 0) + α * val α (v / 2)
termination_by v
decreasing_by omega

@[simp] theorem val_zero : val α 0 = 0 := by
  rw [val, if_pos rfl]

/-- The value of a number by its lowest bit and the rest. -/
theorem val_eq (α : R) (v : ℕ) : val α v = (if v % 2 = 1 then 1 else 0) + α * val α (v / 2) := by
  by_cases hv : v = 0
  · subst hv
    simp
  · rw [val, if_neg hv]

/-- The bits of 1 give one. -/
@[simp] theorem val_one : val α 1 = 1 := by
  rw [val_eq]
  simp

/-- A shift multiplies by the root. -/
theorem val_two_mul (α : R) (v : ℕ) : val α (2 * v) = α * val α v := by
  rw [val_eq, Nat.mul_mod_right, Nat.mul_div_cancel_left v (by decide)]
  simp

theorem val_two : val α 2 = α := by
  rw [show 2 = 2 * 1 from rfl, val_two_mul, val_one, mul_one]

/-- Ring homomorphisms carry values to values. -/
theorem map_val {S : Type*} [CommRing S] (f : R →+* S) (α : R) (v : ℕ) : f (val α v) = val (f α) v := by
  induction v using Nat.strong_induction_on with
  | _ v ih =>
    by_cases hv : v = 0
    · rw [hv, val_zero, val_zero, map_zero]
    · rw [val_eq, val_eq (f α), map_add, map_mul, ih (v / 2) (by omega)]
      congr 1
      split
      · exact map_one f
      · exact map_zero f

/-- Exclusive or is addition in characteristic two. -/
theorem val_xor (h2 : (2 : R) = 0) (α : R) (v w : ℕ) : val α (v ^^^ w) = val α v + val α w := by
  induction v using Nat.strong_induction_on generalizing w with
  | _ v ih =>
    by_cases hv : v = 0
    · rw [hv, Nat.zero_xor, val_zero, zero_add]
    · rw [val_eq α (v ^^^ w), val_eq α v, val_eq α w, Nat.xor_div_two, ih (v / 2) (by omega)]
      have hbit := Nat.xor_mod_two_eq_one (a := v) (b := w)
      by_cases hv1 : v % 2 = 1 <;> by_cases hw1 : w % 2 = 1 <;>
        simp only [hbit, hv1, hw1, iff_self, iff_false, iff_true, not_true_eq_false, not_false_eq_true,
          if_true, if_false]
      · linear_combination -h2
      · ring
      · ring
      · ring

/-! ### Multiplication -/

/-- A word times `α`. -/
def xtime (m p v : ℕ) : ℕ := if (2 * v).testBit m then 2 * v ^^^ p else 2 * v

/-- `xtime` multiplies by the root. -/
theorem val_xtime (h2 : (2 : R) = 0) (hp : val α p = 0) : val α (xtime m p v) = α * val α v := by
  unfold xtime
  split
  · rw [val_xor h2, val_two_mul, hp, add_zero]
  · rw [val_two_mul]

/-- `n` times `xtime` multiplies by the `n`-th power. -/
theorem val_xtime_iterate (h2 : (2 : R) = 0) (hp : val α p = 0) (n : ℕ) :
    val α ((xtime m p)^[n] v) = α ^ n * val α v := by
  induction n with
  | zero => simp
  | succ n ih => rw [Function.iterate_succ_apply', val_xtime h2 hp, ih, pow_succ, ← mul_assoc, mul_comm α]

/-- `xtime` stays within the word. -/
theorem xtime_lt (hp : p < 2 ^ (m + 1)) (hpm : p.testBit m = true) (hv : v < 2 ^ m) :
    xtime m p v < 2 ^ m := by
  have hv' : 2 * v < 2 ^ (m + 1) := by rw [pow_succ]; omega
  have hhigh : ∀ x, x < 2 ^ (m + 1) → x.testBit m = false → x < 2 ^ m := by
    intro x hx hbit
    refine Nat.lt_pow_two_of_testBit x fun i hi => ?_
    rcases Nat.lt_or_ge m i with hlt | hge
    · exact Nat.testBit_lt_two_pow (hx.trans_le (Nat.pow_le_pow_right (by decide) hlt))
    · rwa [show i = m by omega]
  unfold xtime
  split
  next h => exact hhigh _ (Nat.xor_lt_two_pow hv' hp) (by rw [Nat.testBit_xor, h, hpm]; rfl)
  next h => exact hhigh _ hv' (Bool.eq_false_of_not_eq_true h)

/-- The product of a word and the `n` bits of another one from bit `i` on. -/
def mulBits (m p v w : ℕ) : ℕ → ℕ → ℕ
  | 0, _ => 0
  | n + 1, i => xtime m p (mulBits m p v w n (i + 1)) ^^^ if w.testBit i then v else 0

/-- The value of a shifted word by its lowest bit. -/
theorem shiftRight_step (w i : ℕ) : val α (w >>> i) =
    (if w.testBit i then 1 else 0) + α * val α (w >>> (i + 1)) := by
  rw [val_eq, Nat.shiftRight_succ, Nat.testBit_eq_decide_div_mod_eq, Nat.shiftRight_eq_div_pow]
  simp

/-- The loop of the product, from the bit where it stands. -/
theorem val_mulBits (h2 : (2 : R) = 0) (hp : val α p = 0) {n i : ℕ} (hw : w < 2 ^ (i + n)) :
    val α (mulBits m p v w n i) = val α v * val α (w >>> i) := by
  induction n generalizing i with
  | zero =>
    rw [Nat.shiftRight_eq_div_pow, Nat.div_eq_of_lt (by simpa using hw)]
    simp [mulBits]
  | succ n ih =>
    rw [mulBits, val_xor h2, val_xtime h2 hp, ih (by rwa [show i + 1 + n = i + (n + 1) by omega]),
      shiftRight_step w i]
    split
    · ring
    · rw [val_zero]
      ring

/-- The product of two elements, as numbers. -/
def mul (m p v w : ℕ) : ℕ := mulBits m p v w m 0

/-- **Product.** `mul` is the multiplication of values. -/
theorem val_mul (h2 : (2 : R) = 0) (hp : val α p = 0) (hw : w < 2 ^ m) :
    val α (mul m p v w) = val α v * val α w := by
  rw [mul, val_mulBits h2 hp (by rwa [Nat.zero_add]), Nat.shiftRight_zero]

/-- The product stays within the word. -/
theorem mulBits_lt (hp : p < 2 ^ (m + 1)) (hpm : p.testBit m = true) (hv : v < 2 ^ m) (n i : ℕ) :
    mulBits m p v w n i < 2 ^ m := by
  induction n generalizing i with
  | zero => exact Nat.two_pow_pos m
  | succ n ih =>
    refine Nat.xor_lt_two_pow (xtime_lt hp hpm (ih (i + 1))) ?_
    split
    · exact hv
    · exact Nat.two_pow_pos m

/-- The power of `α` by the `n` bits of an exponent from bit `i` on. -/
def powBits (m p e : ℕ) : ℕ → ℕ → ℕ
  | 0, _ => 1
  | n + 1, i =>
    let s := powBits m p e n (i + 1)
    if e.testBit i then xtime m p (mul m p s s) else mul m p s s

/-- The loop of the power, from the bit where it stands. -/
theorem powBits_spec (h2 : (2 : R) = 0) (hroot : val α p = 0) (hp : p < 2 ^ (m + 1))
    (hpm : p.testBit m = true) (hm : 0 < m) {e n i : ℕ} (he : e < 2 ^ (i + n)) :
    powBits m p e n i < 2 ^ m ∧ val α (powBits m p e n i) = α ^ (e >>> i) := by
  induction n generalizing i with
  | zero =>
    rw [Nat.shiftRight_eq_div_pow, Nat.div_eq_of_lt (by simpa using he)]
    exact ⟨Nat.one_lt_two_pow hm.ne', by rw [powBits, val_one, pow_zero]⟩
  | succ n ih =>
    obtain ⟨hlt, hval⟩ := ih (i := i + 1) (by rwa [show i + 1 + n = i + (n + 1) by omega])
    have hsq := val_mul (v := powBits m p e n (i + 1)) h2 hroot hlt
    have hsqlt := mulBits_lt (w := powBits m p e n (i + 1)) hp hpm hlt m 0
    have hexp : e >>> i = 2 * (e >>> (i + 1)) + if e.testBit i then 1 else 0 := by
      rw [Nat.shiftRight_succ, Nat.testBit_eq_decide_div_mod_eq, Nat.shiftRight_eq_div_pow]
      have := Nat.div_add_mod (e / 2 ^ i) 2
      rcases Nat.mod_two_eq_zero_or_one (e / 2 ^ i) with h | h <;> simp [h] <;> omega
    rw [hval, ← pow_add, ← two_mul] at hsq
    rw [powBits, hexp]
    split
    · exact ⟨xtime_lt hp hpm hsqlt, by rw [val_xtime h2 hroot, hsq, pow_succ, mul_comm]⟩
    · exact ⟨hsqlt, by rw [hsq, add_zero]⟩

/-- **Power.** `powBits` is the power of the root. -/
theorem val_powBits (h2 : (2 : R) = 0) (hroot : val α p = 0) (hp : p < 2 ^ (m + 1))
    (hpm : p.testBit m = true) (hm : 0 < m) {e n : ℕ} (he : e < 2 ^ n) :
    val α (powBits m p e n 0) = α ^ e := by
  have h := (powBits_spec (i := 0) h2 hroot hp hpm hm (by rwa [Nat.zero_add])).2
  rwa [Nat.shiftRight_zero] at h

/-- The value at `α ^ j` of the polynomial whose coefficients are the `n` bits of a word from bit `i` on. -/
def evalBits (m p j w : ℕ) : ℕ → ℕ → ℕ
  | 0, _ => 0
  | n + 1, i => (xtime m p)^[j] (evalBits m p j w n (i + 1)) ^^^ if w.testBit i then 1 else 0

/-- A word evaluated at a power of the root. -/
theorem val_evalBits (h2 : (2 : R) = 0) (hp : val α p = 0) {j n i : ℕ} (hw : w < 2 ^ (i + n)) :
    val α (evalBits m p j w n i) = val (α ^ j) (w >>> i) := by
  induction n generalizing i with
  | zero =>
    rw [Nat.shiftRight_eq_div_pow, Nat.div_eq_of_lt (by simpa using hw)]
    simp [evalBits]
  | succ n ih =>
    rw [evalBits, val_xor h2, val_xtime_iterate h2 hp,
      ih (by rwa [show i + 1 + n = i + (n + 1) by omega]), shiftRight_step w i, add_comm]
    congr 1
    split
    · exact val_one
    · exact val_zero

/-- Squaring a place squares the value. -/
theorem val_sq (h2 : (2 : R) = 0) (α : R) (v : ℕ) : val (α ^ 2) v = val α v ^ 2 := by
  induction v using Nat.strong_induction_on with
  | _ v ih =>
    by_cases hv : v = 0
    · simp [hv]
    · rw [val_eq, val_eq α v, ih (v / 2) (by omega)]
      split
      · linear_combination -α * val α (v / 2) * h2
      · ring

/-- The product of polynomials. -/
def product (ws : List ℕ) (n : ℕ) : ℕ := ws.foldr (fun w acc => mulBits 0 0 acc w n 0) 1

/-- The product of a list of words. -/
theorem val_product (h2 : (2 : R) = 0) (α : R) {ws : List ℕ} {n : ℕ} (hws : ∀ w ∈ ws, w < 2 ^ n) :
    val α (product ws n) = (ws.map (val α)).prod := by
  induction ws with
  | nil => exact val_one
  | cons w ws ih =>
    have hw := hws w List.mem_cons_self
    rw [product, List.foldr_cons, val_mulBits h2 val_zero (by rwa [Nat.zero_add]), Nat.shiftRight_zero,
      List.map_cons, List.prod_cons, ← ih fun w hw => hws w (List.mem_cons_of_mem _ hw), mul_comm]
    rfl

/-! ### Primitive polynomials -/

/-- What shows with words that `p` is primitive: `α` has order `2 ^ m - 1`, as the powers that are left
    out by a prime factor of that differ from one by a unit. -/
structure Primitive (m p : ℕ) : Prop where
  pos : 0 < m
  lt : p < 2 ^ (m + 1)
  top : p.testBit m = true
  pow_eq_one : powBits m p (2 ^ m - 1) m 0 = 1
  pow_ne_one : ∀ q, q.Prime → q ∣ 2 ^ m - 1 →
    ∃ w < 2 ^ m, mul m p (powBits m p ((2 ^ m - 1) / q) m 0 ^^^ 1) w = 1

/-- The order of a primitive root divides `2 ^ m - 1`. -/
theorem Primitive.pow_root (h : Primitive m p) (h2 : (2 : R) = 0) (hroot : val α p = 0) :
    α ^ (2 ^ m - 1) = 1 := by
  have hlt : 2 ^ m - 1 < 2 ^ m := Nat.sub_lt (Nat.two_pow_pos m) Nat.one_pos
  rw [← val_powBits h2 hroot h.lt h.top h.pos hlt, h.pow_eq_one, val_one]

/-- Over polynomials the value has the bits as coefficients. -/
theorem coeff_val_X (v i : ℕ) :
    (val (Polynomial.X : Polynomial R) v).coeff i = if v.testBit i then 1 else 0 := by
  induction i generalizing v with
  | zero =>
    rw [val_eq, Polynomial.coeff_add, Polynomial.mul_coeff_zero, Polynomial.coeff_X_zero, zero_mul,
      add_zero, Nat.testBit_zero]
    by_cases h : v % 2 = 1 <;> simp [h]
  | succ i ih =>
    rw [val_eq, Polynomial.coeff_add, Polynomial.coeff_X_mul, ih, Nat.testBit_succ]
    by_cases h : v % 2 = 1 <;> simp [h, Polynomial.coeff_one]

/-- The field of order `2 ^ m`. -/
abbrev Gf (m : ℕ) : Type := GaloisField 2 m

open Polynomial in
/-- The polynomial divides `X ^ 2 ^ m - X`, so it has a root in the field of that order. -/
theorem Primitive.exists_root (h : Primitive m p) : ∃ α : Gf m, val α p = 0 := by
  set P : (ZMod 2)[X] := val X p with hP
  have hdvd : P ∣ X ^ 2 ^ m - X := by
    have h2 : (2 : AdjoinRoot P) = 0 := by
      have h := map_ofNat (AdjoinRoot.of P) 2
      rw [← h, show (OfNat.ofNat 2 : ZMod 2) = 0 from rfl, map_zero]
    have hroot : val (AdjoinRoot.root P) p = 0 := by
      rw [← AdjoinRoot.mk_X, ← map_val, ← hP, AdjoinRoot.mk_self]
    have hpow := h.pow_root h2 hroot
    have hsplit : 2 ^ m = 2 ^ m - 1 + 1 := (Nat.sub_add_cancel (Nat.two_pow_pos m)).symm
    rw [← AdjoinRoot.mk_eq_zero, map_sub, map_pow, AdjoinRoot.mk_X, hsplit, pow_succ, hpow, one_mul, sub_self]
  have hne : (X ^ 2 ^ m - X : (ZMod 2)[X]) ≠ 0 :=
    FiniteField.X_pow_card_pow_sub_X_ne_zero _ h.pos.ne' Nat.one_lt_two
  have hsplits : (P.map (algebraMap (ZMod 2) (GaloisField 2 m))).Splits :=
    (SplittingField.splits (X ^ 2 ^ m - X : (ZMod 2)[X])).of_dvd
      (Polynomial.map_ne_zero hne) (Polynomial.map_dvd _ hdvd)
  have hval : P.map (algebraMap (ZMod 2) (GaloisField 2 m)) = val X p := by
    have := map_val (mapRingHom (algebraMap (ZMod 2) (GaloisField 2 m))) X p
    rwa [coe_mapRingHom, map_X] at this
  obtain ⟨α, hα⟩ := hsplits.exists_eval_eq_zero (by
    refine (lt_of_lt_of_le ?_ (le_degree_of_ne_zero (n := m) ?_)).ne'
    · exact_mod_cast h.pos
    · rw [hval, coeff_val_X, if_pos h.top]
      exact one_ne_zero)
  refine ⟨α, ?_⟩
  have heval := map_val (evalRingHom α) X p
  rwa [coe_evalRingHom, ← hval, hα, eval_X, eq_comm] at heval

/-- **The field of a primitive polynomial.** It has a root, whose powers are all the elements but zero, and
    words of `m` bits stand for the elements one to one. -/
theorem Primitive.exists_field (h : Primitive m p) : ∃ α : Gf m, val α p = 0 ∧
    (∀ i < 2 ^ m - 1, ∀ j < 2 ^ m - 1, α ^ i = α ^ j → i = j) ∧
    (∀ a ≠ 0, ∃ i < 2 ^ m - 1, α ^ i = a) ∧ Set.BijOn (val α) (Set.Iio (2 ^ m)) Set.univ := by
  obtain ⟨α, hα⟩ := h.exists_root
  have h2 : (2 : GaloisField 2 m) = 0 := CharTwo.two_eq_zero
  have hcard : Nat.card (GaloisField 2 m) = 2 ^ m := GaloisField.card 2 m h.pos.ne'
  have hpos : 0 < 2 ^ m - 1 := Nat.sub_pos_of_lt (Nat.one_lt_two_pow h.pos.ne')
  have horder : orderOf α = 2 ^ m - 1 := by
    refine orderOf_eq_of_pow_and_pow_div_prime hpos (h.pow_root h2 hα) fun q hq hdvd hone => ?_
    obtain ⟨w, hw, hmul⟩ := h.pow_ne_one q hq hdvd
    have hlt : (2 ^ m - 1) / q < 2 ^ m :=
      (Nat.div_le_self _ _).trans_lt (Nat.sub_lt (Nat.two_pow_pos m) Nat.one_pos)
    have hval := congrArg (val α) hmul
    rw [val_mul h2 hα hw, val_xor h2, val_powBits h2 hα h.lt h.top h.pos hlt, hone, val_one,
      CharTwo.add_self_eq_zero, zero_mul] at hval
    exact zero_ne_one hval
  have hα0 : α ≠ 0 := by
    rintro rfl
    have := h.pow_root h2 hα
    rw [zero_pow hpos.ne'] at this
    exact zero_ne_one this
  have hinj : ∀ i < 2 ^ m - 1, ∀ j < 2 ^ m - 1, α ^ i = α ^ j → i = j := by
    intro i hi j hj hij
    exact pow_injOn_Iio_orderOf (by rwa [horder]) (by rwa [horder]) hij
  have hsurj : ∀ a ≠ 0, ∃ i < 2 ^ m - 1, α ^ i = a := by
    classical
    have := Fintype.ofFinite (GaloisField 2 m)
    have himage : (Finset.range (2 ^ m - 1)).image (α ^ ·) = Finset.univ.erase 0 := by
      refine Finset.eq_of_subset_of_card_le (fun x hx => ?_) ?_
      · obtain ⟨i, -, rfl⟩ := Finset.mem_image.1 hx
        exact Finset.mem_erase.2 ⟨pow_ne_zero i hα0, Finset.mem_univ _⟩
      · rw [Finset.card_image_of_injOn fun i hi j hj => hinj i (Finset.mem_range.1 hi) j (Finset.mem_range.1 hj),
          Finset.card_range, Finset.card_erase_of_mem (Finset.mem_univ _), Finset.card_univ,
          ← Nat.card_eq_fintype_card, hcard]
    intro a ha
    have hmem : a ∈ (Finset.range (2 ^ m - 1)).image (α ^ ·) := by
      rw [himage]
      exact Finset.mem_erase.2 ⟨ha, Finset.mem_univ _⟩
    obtain ⟨i, hi, rfl⟩ := Finset.mem_image.1 hmem
    exact ⟨i, Finset.mem_range.1 hi, rfl⟩
  have hword : ∀ i, (xtime m p)^[i] 1 < 2 ^ m := by
    intro i
    induction i with
    | zero => exact Nat.one_lt_two_pow h.pos.ne'
    | succ i ih =>
      rw [Function.iterate_succ_apply']
      exact xtime_lt h.lt h.top ih
  have hsurjOn : Set.SurjOn (val α) (Set.Iio (2 ^ m)) Set.univ := by
    intro a _
    by_cases ha : a = 0
    · exact ⟨0, Nat.two_pow_pos m, by rw [val_zero, ha]⟩
    · obtain ⟨i, -, rfl⟩ := hsurj a ha
      exact ⟨(xtime m p)^[i] 1, hword i, by rw [val_xtime_iterate h2 hα, val_one, mul_one]⟩
  refine ⟨α, hα, hinj, hsurj, fun _ _ => Set.mem_univ _, ?_, hsurjOn⟩
  have hbij : Function.Bijective fun v : Fin (2 ^ m) => val α v := by
    refine (Nat.bijective_iff_surjective_and_card _).2 ⟨fun a => ?_, by rw [hcard, Nat.card_fin]⟩
    obtain ⟨v, hv, rfl⟩ := hsurjOn (Set.mem_univ a)
    exact ⟨⟨v, hv⟩, rfl⟩
  intro v hv w hw hvw
  have heq : (⟨v, hv⟩ : Fin (2 ^ m)) = ⟨w, hw⟩ := hbij.injective hvw
  exact congrArg Fin.val heq

end BinaryField
