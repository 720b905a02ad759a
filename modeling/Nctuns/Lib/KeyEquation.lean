import Mathlib.Algebra.CharP.Two
import Mathlib.FieldTheory.Perfect
import Mathlib.RingTheory.PowerSeries.Derivative
import Mathlib.RingTheory.PowerSeries.Inverse

/-!
# The key equation of binary codes

Over a field of characteristic two, the locator of a set of places and the power sums of the set meet
`σ S = z σ'`. The Berlekamp-Massey recursion finds the shortest `Λ` that meets the equation up to a
given order. Such power sums meet `z S' = S + S²`, so at an even order there is never a discrepancy.
-/

namespace KeyEquation

open Polynomial

variable {F : Type*} [Field F]

/-! ### The derivation -/

/-- `z` times the derivative. -/
noncomputable def theta (f : PowerSeries F) : PowerSeries F := PowerSeries.X * PowerSeries.derivative F f

/-- The derivation respects addition. -/
theorem theta_add (f g : PowerSeries F) : theta (f + g) = theta f + theta g := by
  unfold theta
  rw [map_add, mul_add]

/-- The derivation respects subtraction. -/
theorem theta_sub (f g : PowerSeries F) : theta (f - g) = theta f - theta g := by
  unfold theta
  rw [map_sub, mul_sub]

/-- The product rule. -/
theorem theta_mul (f g : PowerSeries F) : theta (f * g) = f * theta g + g * theta f := by
  unfold theta
  rw [Derivation.leibniz, smul_eq_mul, smul_eq_mul]
  ring

/-- Constants have derivation zero. -/
theorem theta_C (c : F) : theta (PowerSeries.C c) = 0 := by
  unfold theta
  rw [PowerSeries.derivative_C, mul_zero]

/-- The derivation keeps the variable. -/
theorem theta_X : theta (PowerSeries.X : PowerSeries F) = PowerSeries.X := by
  unfold theta
  rw [PowerSeries.derivative_X, mul_one]

theorem theta_one : theta (1 : PowerSeries F) = 0 := by
  rw [← map_one (PowerSeries.C (R := F)), theta_C]

/-- The derivation multiplies each coefficient by its degree. -/
theorem coeff_theta (f : PowerSeries F) (n : ℕ) :
    PowerSeries.coeff n (theta f) = n * PowerSeries.coeff n f := by
  unfold theta
  cases n with
  | zero => simp
  | succ n =>
    rw [PowerSeries.coeff_succ_X_mul, PowerSeries.coeff_derivative]
    push_cast
    ring

@[simp] theorem constantCoeff_theta (f : PowerSeries F) : PowerSeries.constantCoeff (theta f) = 0 := by
  rw [← PowerSeries.coeff_zero_eq_constantCoeff_apply, coeff_theta, Nat.cast_zero, zero_mul]

/-- On a polynomial the derivation is `X` times the formal derivative. -/
theorem theta_coe (p : F[X]) : theta (p : PowerSeries F) = ((X * derivative p : F[X]) : PowerSeries F) := by
  unfold theta
  rw [PowerSeries.derivative_coe, Polynomial.coe_mul, Polynomial.coe_X]

/-- Above the sum of the degrees the coefficients of `p * theta q` are zero. -/
theorem coeff_mul_theta {p q : F[X]} {j : ℕ} (hj : p.natDegree + q.natDegree < j) :
    PowerSeries.coeff j ((p : PowerSeries F) * theta (q : PowerSeries F)) = 0 := by
  rw [theta_coe, ← Polynomial.coe_mul, Polynomial.coeff_coe]
  refine coeff_eq_zero_of_natDegree_lt (lt_of_le_of_lt ?_ hj)
  refine natDegree_mul_le.trans (Nat.add_le_add_left ?_ _)
  rcases Nat.eq_zero_or_pos q.natDegree with h0 | hpos
  · rw [derivative_of_natDegree_zero h0, mul_zero, natDegree_zero]
    exact Nat.zero_le _
  · have hX := natDegree_mul_le (p := (X : F[X])) (q := derivative q)
    have hd := natDegree_derivative_le q
    rw [natDegree_X] at hX
    omega

/-- A multiple of a power stays one. -/
theorem theta_X_pow_mul (n : ℕ) (f : PowerSeries F) :
    theta (PowerSeries.X ^ n * f) = PowerSeries.X ^ n * ((n : PowerSeries F) * f + theta f) := by
  induction n generalizing f with
  | zero => simp
  | succ n ih =>
    rw [pow_succ, mul_assoc, ih, theta_mul, theta_X]
    push_cast
    ring

/-! ### Power sums and locators -/

/-- The power sums of a set of places, from the first one on. -/
noncomputable def powerSums (E : Finset F) : PowerSeries F :=
  PowerSeries.mk fun i => if i = 0 then 0 else ∑ x ∈ E, x ^ i

/-- The polynomial whose roots are the inverses of the places. -/
noncomputable def locator (E : Finset F) : F[X] := ∏ x ∈ E, (1 - C x * X)

/-- The power sums of a binary word. -/
structure Binary (S : PowerSeries F) : Prop where
  zero : PowerSeries.constantCoeff S = 0
  theta_eq : theta S = S + S ^ 2

/-- `Λ` meets the key equation up to the order `n`. -/
def Solves (S : PowerSeries F) (n : ℕ) (Λ : F[X]) : Prop :=
  ∃ R, (Λ : PowerSeries F) * S = theta (Λ : PowerSeries F) + PowerSeries.X ^ (n + 1) * R

/-- A locator has constant term one. -/
theorem coeff_zero_locator (E : Finset F) : (locator E).coeff 0 = 1 := by
  unfold locator
  rw [coeff_zero_eq_eval_zero, eval_prod]
  exact Finset.prod_eq_one fun x _ => by simp

/-- A further error adds its own power sums. -/
theorem powerSums_insert [DecidableEq F] {x : F} {E : Finset F} (hx : x ∉ E) :
    powerSums (insert x E) = powerSums {x} + powerSums E := by
  ext n
  simp only [powerSums, map_add, PowerSeries.coeff_mk]
  split
  · rw [add_zero]
  · rw [Finset.sum_insert hx, Finset.sum_singleton]

/-- The geometric series of one place. -/
theorem one_sub_mul_powerSums (x : F) :
    (1 - PowerSeries.C x * PowerSeries.X) * powerSums {x} = PowerSeries.C x * PowerSeries.X := by
  ext n
  rw [sub_mul, one_mul, map_sub, mul_assoc, PowerSeries.coeff_C_mul, PowerSeries.coeff_C_mul]
  cases n with
  | zero => simp [powerSums]
  | succ n =>
    rw [PowerSeries.coeff_succ_X_mul, PowerSeries.coeff_X]
    simp only [powerSums, PowerSeries.coeff_mk, Finset.sum_singleton, Nat.succ_ne_zero, if_false,
      Nat.add_eq_right]
    split
    · subst_vars
      simp
    · rw [pow_succ]
      ring

/-- The roots of a locator are the inverses of its elements. -/
theorem eval_locator_eq_zero {E : Finset F} {y : F} :
    (locator E).eval y = 0 ↔ ∃ x ∈ E, x * y = 1 := by
  unfold locator
  rw [eval_prod, Finset.prod_eq_zero_iff]
  refine exists_congr fun x => and_congr_right fun _ => ?_
  rw [eval_sub, eval_one, eval_mul, eval_C, eval_X, sub_eq_zero, eq_comm]

/-- The degree of a locator is the number of errors. -/
theorem natDegree_locator {E : Finset F} (h0 : (0 : F) ∉ E) : (locator E).natDegree = E.card := by
  have hdeg : ∀ x ∈ E, (1 - C x * X : F[X]).natDegree = 1 := by
    intro x hx
    have hx0 : x ≠ 0 := fun h => h0 (h ▸ hx)
    rw [natDegree_sub, ← C_1, natDegree_sub_C, natDegree_C_mul_X x hx0]
  unfold locator
  rw [natDegree_prod _ _ fun x hx => ne_zero_of_natDegree_gt (n := 0) (by rw [hdeg x hx]; exact one_pos),
    Finset.sum_congr rfl hdeg, Finset.sum_const, smul_eq_mul, mul_one]

/-- A locator has no root twice. -/
theorem separable_locator (E : Finset F) : (locator E).Separable := by
  refine separable_prod' (fun x _ y _ hne => ?_) fun x _ => ?_
  · have hne' : y - x ≠ 0 := sub_ne_zero.2 (Ne.symm hne)
    have hC : (C (y - x)⁻¹ * (C y - C x) : F[X]) = 1 := by
      rw [← C_sub, ← C_mul, inv_mul_cancel₀ hne', C_1]
    refine ⟨C (y - x)⁻¹ * C y, -(C (y - x)⁻¹ * C x), ?_⟩
    linear_combination hC
  · refine ⟨1, -X, ?_⟩
    rw [derivative_sub, derivative_one, derivative_C_mul, derivative_X]
    ring

variable {S : PowerSeries F} {Λ T σ : F[X]} {k l n : ℕ}

/-- A solution up to a degree is one up to every smaller degree. -/
theorem Solves.mono {m : ℕ} (h : Solves S n σ) (hm : m ≤ n) : Solves S m σ := by
  obtain ⟨R, hR⟩ := h
  refine ⟨PowerSeries.X ^ (n - m) * R, ?_⟩
  rw [hR, ← mul_assoc, ← pow_add]
  congr 3
  omega

/-- The discrepancy is the coefficient of the product at the next order. -/
theorem Solves.discrepancy {R : PowerSeries F} (hdeg : Λ.natDegree ≤ k)
    (hR : (Λ : PowerSeries F) * S = theta (Λ : PowerSeries F) + PowerSeries.X ^ (k + 1) * R) :
    PowerSeries.constantCoeff R = PowerSeries.coeff (k + 1) ((Λ : PowerSeries F) * S) := by
  have hΛ : Λ.coeff (k + 1) = 0 := coeff_eq_zero_of_natDegree_lt (Nat.lt_succ_of_le hdeg)
  rw [hR, map_add, coeff_theta, Polynomial.coeff_coe, hΛ, mul_zero, zero_add, PowerSeries.coeff_X_pow_mul',
    if_pos le_rfl, Nat.sub_self, PowerSeries.coeff_zero_eq_constantCoeff_apply]

/-! ### The recursion -/

/-- What the recursion knows behind `k` steps: `Λ` meets the key equation up to there, no shorter one
    does, and `T` misses it at the next order by one. -/
structure Inv (S : PowerSeries F) (k : ℕ) (Λ T : F[X]) (l : ℕ) : Prop where
  one : Λ.coeff 0 = 1
  zero : T.coeff 0 = 0
  degree : Λ.natDegree ≤ l
  le : l ≤ k
  degree_T : T.natDegree + l ≤ k + 1
  solves : Solves S k Λ
  aux : ∃ Q, (T : PowerSeries F) * S = theta (T : PowerSeries F) +
    (k : PowerSeries F) * (T : PowerSeries F) +
    PowerSeries.X ^ (k + 1) * (1 + PowerSeries.X * Q)
  shortest : ∀ σ : F[X], σ.coeff 0 = 1 → Solves S k σ → l ≤ σ.natDegree

/-- What is left of the product behind the next order. -/
theorem Inv.rest (h : Inv S k Λ T l) : ∃ R, (Λ : PowerSeries F) * S = theta (Λ : PowerSeries F) +
    PowerSeries.X ^ (k + 1) *
      (PowerSeries.C (PowerSeries.coeff (k + 1) ((Λ : PowerSeries F) * S)) + PowerSeries.X * R) := by
  obtain ⟨R, hR⟩ := h.solves
  have hδ := Solves.discrepancy (h.degree.trans h.le) hR
  obtain ⟨R₁, hR₁⟩ : PowerSeries.X ∣ R - PowerSeries.C (PowerSeries.constantCoeff R) :=
    PowerSeries.X_dvd_iff.2 (by simp)
  refine ⟨R₁, ?_⟩
  rw [← hδ, ← hR₁, add_sub_cancel]
  exact hR

/-- **The length.** What meets the key equation beyond a discrepancy is longer than what does not. -/
theorem Inv.length_le (h : Inv S k Λ T l) (hδ : PowerSeries.coeff (k + 1) ((Λ : PowerSeries F) * S) ≠ 0)
    (hσ : σ.coeff 0 = 1) (hsolves : Solves S (k + 1) σ) : k + 1 - l ≤ σ.natDegree := by
  by_contra hlt
  have hlt : σ.natDegree + l < k + 1 := by omega
  have hdeg := h.degree
  obtain ⟨R, hR⟩ := h.rest
  obtain ⟨R', hR'⟩ := hsolves
  set δ := PowerSeries.coeff (k + 1) ((Λ : PowerSeries F) * S) with hδdef
  have heq : (σ : PowerSeries F) * theta (Λ : PowerSeries F) + PowerSeries.X ^ (k + 1) *
      ((σ : PowerSeries F) * (PowerSeries.C δ + PowerSeries.X * R)) =
      (Λ : PowerSeries F) * theta (σ : PowerSeries F) +
        PowerSeries.X ^ (k + 1) * (PowerSeries.X * ((Λ : PowerSeries F) * R')) := by
    linear_combination (Λ : PowerSeries F) * hR' - (σ : PowerSeries F) * hR
  have hcoeff := congrArg (PowerSeries.coeff (k + 1)) heq
  rw [map_add, map_add, coeff_mul_theta (by omega), coeff_mul_theta (by omega), PowerSeries.coeff_X_pow_mul',
    PowerSeries.coeff_X_pow_mul', if_pos le_rfl, if_pos le_rfl, Nat.sub_self,
    PowerSeries.coeff_zero_eq_constantCoeff_apply, PowerSeries.coeff_zero_eq_constantCoeff_apply] at hcoeff
  simp [hσ] at hcoeff
  exact hδ hcoeff

/-- **The locator is the only one.** -/
theorem Solves.eq (hΛ : Λ.coeff 0 = 1) (hσ : σ.coeff 0 = 1) (hsep : σ.Separable)
    (hsolves : Solves S n Λ) (hsolves' : Solves S n σ) (hle : Λ.natDegree ≤ σ.natDegree)
    (hn : Λ.natDegree + σ.natDegree ≤ n) : Λ = σ := by
  obtain ⟨R, hR⟩ := hsolves
  obtain ⟨R', hR'⟩ := hsolves'
  have hseries : (σ : PowerSeries F) * theta (Λ : PowerSeries F) =
      (Λ : PowerSeries F) * theta (σ : PowerSeries F) := by
    have heq : (σ : PowerSeries F) * theta (Λ : PowerSeries F) +
        PowerSeries.X ^ (n + 1) * ((σ : PowerSeries F) * R) =
        (Λ : PowerSeries F) * theta (σ : PowerSeries F) +
          PowerSeries.X ^ (n + 1) * ((Λ : PowerSeries F) * R') := by
      linear_combination (Λ : PowerSeries F) * hR' - (σ : PowerSeries F) * hR
    ext j
    rcases Nat.lt_or_ge n j with hj | hj
    · rw [coeff_mul_theta (by omega), coeff_mul_theta (by omega)]
    · have hcoeff := congrArg (PowerSeries.coeff j) heq
      rwa [map_add, map_add, PowerSeries.coeff_X_pow_mul', PowerSeries.coeff_X_pow_mul',
        if_neg (by omega), if_neg (by omega), add_zero, add_zero] at hcoeff
  have hpoly : σ * derivative Λ = Λ * derivative σ := by
    rw [theta_coe, theta_coe, ← Polynomial.coe_mul, ← Polynomial.coe_mul, Polynomial.coe_inj] at hseries
    refine mul_left_cancel₀ (X_ne_zero (R := F)) ?_
    linear_combination hseries
  obtain ⟨c, hc⟩ : σ ∣ Λ := by
    refine IsCoprime.dvd_of_dvd_mul_right ?_ (Dvd.intro _ hpoly)
    exact hsep
  have hσ0 : σ ≠ 0 := by
    rintro rfl
    simp at hσ
  have hc0 : c ≠ 0 := by
    rintro rfl
    simp [hc] at hΛ
  have hdeg : c.natDegree = 0 := by
    rw [hc, natDegree_mul hσ0 hc0] at hle
    omega
  obtain ⟨a, rfl⟩ := natDegree_eq_zero.1 hdeg
  rw [hc, mul_coeff_zero, hσ, coeff_C_zero, one_mul] at hΛ
  rw [hc, hΛ, C_1, mul_one]

/-- Multiplying by `X` raises the degree by at most one. -/
theorem natDegree_X_mul_le (p : F[X]) : (X * p).natDegree ≤ p.natDegree + 1 := by
  have h := natDegree_mul_le (p := (X : F[X])) (q := p)
  rw [natDegree_X] at h
  omega

/-- An adjustment is no longer than the longer of its parts. -/
theorem natDegree_adjust_le (Λ T : F[X]) (δ : F) :
    (Λ - C δ * T).natDegree ≤ max Λ.natDegree T.natDegree :=
  (natDegree_sub_le _ _).trans (max_le_max le_rfl (natDegree_C_mul_le δ T))

theorem Inv.adjust_one (h : Inv S k Λ T l) (δ : F) : (Λ - C δ * T).coeff 0 = 1 := by
  rw [coeff_sub, coeff_C_mul, h.one, h.zero, mul_zero, sub_zero]

/-- The state of the recursion. -/
structure State (F : Type*) [Field F] where
  Λ : F[X]
  T : F[X]
  l : ℕ

/-- One step of the recursion, of order `k`. -/
noncomputable def State.step [DecidableEq F] (S : PowerSeries F) (s : State F) (k : ℕ) : State F :=
  let δ := PowerSeries.coeff k ((s.Λ : PowerSeries F) * S)
  if δ = 0 then ⟨s.Λ, X * s.T, s.l⟩
  else if 2 * s.l < k then ⟨s.Λ - C δ * s.T, X * (C δ⁻¹ * s.Λ), k - s.l⟩
  else ⟨s.Λ - C δ * s.T, X * s.T, s.l⟩

/-- The first `n` steps. -/
noncomputable def State.run [DecidableEq F] (S : PowerSeries F) (n : ℕ) : State F :=
  (List.range' 1 n).foldl (State.step S) ⟨1, X, 0⟩

section Binary

variable [CharP F 2]

instance charP_powerSeries : CharP (PowerSeries F) 2 := by
  refine CharTwo.of_one_ne_zero_of_two_eq_zero one_ne_zero ?_
  have h : (2 : F) = 0 := CharTwo.two_eq_zero
  rw [← map_ofNat (PowerSeries.C (R := F)) 2, h, map_zero]

/-- `theta` keeps the odd powers and drops the others. -/
theorem theta_theta (f : PowerSeries F) : theta (theta f) = theta f := by
  ext n
  rw [coeff_theta, coeff_theta]
  rcases CharTwo.natCast_cases (R := F) n with h | h
  · rw [h, zero_mul, zero_mul]
  · rw [h, one_mul, one_mul]

/-- **The key equation.** -/
theorem locator_mul_powerSums (E : Finset F) :
    (locator E : PowerSeries F) * powerSums E = theta (locator E : PowerSeries F) := by
  classical
  induction E using Finset.induction_on with
  | empty =>
    have h : powerSums (∅ : Finset F) = 0 := by
      ext n
      simp [powerSums]
    rw [h, mul_zero]
    simp [locator, theta_one]
  | insert x E hx ih =>
    have hloc : (locator (insert x E) : PowerSeries F) =
        (1 - PowerSeries.C x * PowerSeries.X) * (locator E : PowerSeries F) := by
      unfold locator
      rw [Finset.prod_insert hx]
      simp
    have htheta : theta (1 - PowerSeries.C x * PowerSeries.X) = PowerSeries.C x * PowerSeries.X := by
      rw [theta_sub, theta_one, theta_mul, theta_C, theta_X, mul_zero, add_zero, zero_sub, CharTwo.neg_eq]
    rw [hloc, powerSums_insert hx, theta_mul, htheta, ← ih, mul_add]
    have hgeom := one_sub_mul_powerSums x
    linear_combination (locator E : PowerSeries F) * hgeom

/-- What meets the key equation exactly are the power sums of a binary word. -/
theorem Binary.of_eq {S : PowerSeries F} {σ : F[X]} (hσ : σ.coeff 0 = 1)
    (h : (σ : PowerSeries F) * S = theta (σ : PowerSeries F)) : Binary S := by
  have hne : (σ : PowerSeries F) ≠ 0 := by
    intro h0
    have := congrArg PowerSeries.constantCoeff h0
    simp [hσ] at this
  constructor
  · have h0 := congrArg PowerSeries.constantCoeff h
    rwa [map_mul, Polynomial.constantCoeff_coe, hσ, one_mul, constantCoeff_theta] at h0
  · have hd := congrArg theta h
    rw [theta_mul, theta_theta, ← h] at hd
    refine mul_left_cancel₀ hne ?_
    have h2 : (2 : PowerSeries F) = 0 := CharTwo.two_eq_zero
    linear_combination hd - (σ : PowerSeries F) * S ^ 2 * h2

/-- Power sums over a field of characteristic two: the even ones are squares. -/
theorem powerSums_binary (E : Finset F) : Binary (powerSums E) :=
  Binary.of_eq (coeff_zero_locator E) (locator_mul_powerSums E)

/-- At an even order there is no discrepancy. -/
theorem Binary.discrepancy_even (hS : Binary S) (hΛ : Λ.coeff 0 = 1) {R : PowerSeries F}
    (hR : (Λ : PowerSeries F) * S = theta (Λ : PowerSeries F) + PowerSeries.X ^ n * R)
    (hn : Even n) : PowerSeries.constantCoeff R = 0 := by
  have h2 : (2 : PowerSeries F) = 0 := CharTwo.two_eq_zero
  have hcast : (n : PowerSeries F) = 0 := by rw [CharTwo.natCast_eq_ite, if_pos hn]
  have hne : (Λ : PowerSeries F) ≠ 0 := by
    intro h0
    have := congrArg PowerSeries.constantCoeff h0
    simp [hΛ] at this
  have hd := congrArg theta hR
  rw [theta_mul, hS.theta_eq, theta_add, theta_theta, theta_X_pow_mul, hcast, zero_mul, zero_add] at hd
  have hcancel : R = theta R + S * R := by
    refine mul_left_cancel₀ (mul_ne_zero hne (pow_ne_zero n PowerSeries.X_ne_zero)) ?_
    set L := (Λ : PowerSeries F)
    linear_combination L * hd + (L * S - L) * hR - (L * S) ^ 2 * h2
  rw [hcancel, map_add, map_mul, constantCoeff_theta, hS.zero, zero_mul, add_zero]

/-- The invariant holds before the first step. -/
theorem Inv.init (S : PowerSeries F) (hS : Binary S) : Inv S 0 1 X 0 where
  one := coeff_one_zero
  zero := coeff_X_zero
  degree := by rw [natDegree_one]
  le := le_rfl
  degree_T := by rw [natDegree_X]
  solves := by
    obtain ⟨R, hR⟩ := PowerSeries.X_dvd_iff.2 hS.zero
    exact ⟨R, by rw [Polynomial.coe_one, one_mul, theta_one, zero_add, zero_add, pow_one, hR]⟩
  aux := by
    obtain ⟨R, hR⟩ := PowerSeries.X_dvd_iff.2 hS.zero
    have h2 : (2 : PowerSeries F) = 0 := CharTwo.two_eq_zero
    refine ⟨R, ?_⟩
    rw [Polynomial.coe_X, theta_X, hR]
    push_cast
    linear_combination -PowerSeries.X * h2
  shortest := fun σ _ _ => Nat.zero_le _

/-- The auxiliary polynomial, shifted, falls short of the equation at the next degree only. -/
theorem Inv.shift_aux (h : Inv S k Λ T l) : ∃ Q, ((X * T : F[X]) : PowerSeries F) * S =
    theta ((X * T : F[X]) : PowerSeries F) + ((k + 1 : ℕ) : PowerSeries F) * ((X * T : F[X]) : PowerSeries F) +
      PowerSeries.X ^ (k + 1 + 1) * (1 + PowerSeries.X * Q) := by
  obtain ⟨Q, hQ⟩ := h.aux
  have h2 : (2 : PowerSeries F) = 0 := CharTwo.two_eq_zero
  refine ⟨Q, ?_⟩
  rw [Polynomial.coe_mul, Polynomial.coe_X, theta_mul, theta_X]
  push_cast
  linear_combination PowerSeries.X * hQ - PowerSeries.X * (T : PowerSeries F) * h2

/-- **Step lemma.** No discrepancy. -/
theorem Inv.keep (h : Inv S k Λ T l) (hδ : PowerSeries.coeff (k + 1) ((Λ : PowerSeries F) * S) = 0) :
    Inv S (k + 1) Λ (X * T) l where
  one := h.one
  zero := coeff_X_mul_zero T
  degree := h.degree
  le := h.le.trans (Nat.le_succ k)
  degree_T := by
    have hX := natDegree_X_mul_le T
    have hT := h.degree_T
    omega
  solves := by
    obtain ⟨R, hR⟩ := h.rest
    rw [hδ, map_zero, zero_add, ← mul_assoc, ← pow_succ] at hR
    exact ⟨R, hR⟩
  aux := h.shift_aux
  shortest := fun σ hσ hsolves => h.shortest σ hσ (hsolves.mono (Nat.le_succ k))

/-- The discrepancies are at odd orders. -/
theorem Inv.even (hS : Binary S) (h : Inv S k Λ T l)
    (hδ : PowerSeries.coeff (k + 1) ((Λ : PowerSeries F) * S) ≠ 0) : Even k := by
  by_contra hodd
  obtain ⟨R, hR⟩ := h.solves
  refine hδ ?_
  rw [← Solves.discrepancy (h.degree.trans h.le) hR]
  exact hS.discrepancy_even h.one hR (Nat.even_add_one.2 hodd)

/-- **Step lemma.** With a discrepancy `Λ` is made up for by `T`. -/
theorem Inv.adjust_solves (hS : Binary S) (h : Inv S k Λ T l) {δ : F}
    (hδ : PowerSeries.coeff (k + 1) ((Λ : PowerSeries F) * S) = δ) (hne : δ ≠ 0) :
    Solves S (k + 1) (Λ - C δ * T) := by
  obtain ⟨R, hR⟩ := h.rest
  obtain ⟨Q, hQ⟩ := h.aux
  have hcast : (k : PowerSeries F) = 0 := by
    rw [CharTwo.natCast_eq_ite, if_pos (h.even hS (hδ ▸ hne))]
  rw [hδ] at hR
  rw [hcast] at hQ
  refine ⟨R - PowerSeries.C δ * Q, ?_⟩
  rw [Polynomial.coe_sub, Polynomial.coe_mul, Polynomial.coe_C, theta_sub, theta_mul, theta_C]
  linear_combination hR - PowerSeries.C δ * hQ

/-- The step that keeps the length. -/
theorem Inv.adjust (hS : Binary S) (h : Inv S k Λ T l) {δ : F}
    (hδ : PowerSeries.coeff (k + 1) ((Λ : PowerSeries F) * S) = δ) (hne : δ ≠ 0) (hl : k + 1 ≤ 2 * l) :
    Inv S (k + 1) (Λ - C δ * T) (X * T) l where
  one := h.adjust_one δ
  zero := coeff_X_mul_zero T
  degree := by
    have hdeg := natDegree_adjust_le Λ T δ
    have hΛ := h.degree
    have hT := h.degree_T
    omega
  le := h.le.trans (Nat.le_succ k)
  degree_T := by
    have hX := natDegree_X_mul_le T
    have hT := h.degree_T
    omega
  solves := h.adjust_solves hS hδ hne
  aux := h.shift_aux
  shortest := fun σ hσ hsolves => h.shortest σ hσ (hsolves.mono (Nat.le_succ k))

/-- **Step lemma.** A discrepancy that needs a longer polynomial. -/
theorem Inv.lengthen (hS : Binary S) (h : Inv S k Λ T l) {δ : F}
    (hδ : PowerSeries.coeff (k + 1) ((Λ : PowerSeries F) * S) = δ) (hne : δ ≠ 0) (hl : 2 * l < k + 1) :
    Inv S (k + 1) (Λ - C δ * T) (X * (C δ⁻¹ * Λ)) (k + 1 - l) where
  one := h.adjust_one δ
  zero := coeff_X_mul_zero _
  degree := by
    have hdeg := natDegree_adjust_le Λ T δ
    have hΛ := h.degree
    have hT := h.degree_T
    omega
  le := Nat.sub_le _ _
  degree_T := by
    have hX := natDegree_X_mul_le (C δ⁻¹ * Λ)
    have hC := natDegree_C_mul_le δ⁻¹ Λ
    have hΛ := h.degree
    omega
  solves := h.adjust_solves hS hδ hne
  aux := by
    obtain ⟨R, hR⟩ := h.rest
    have h2 : (2 : PowerSeries F) = 0 := CharTwo.two_eq_zero
    have hcast : (k : PowerSeries F) = 0 := by
      rw [CharTwo.natCast_eq_ite, if_pos (h.even hS (hδ ▸ hne))]
    have hinv : PowerSeries.C δ⁻¹ * PowerSeries.C δ = 1 := by
      rw [← map_mul, inv_mul_cancel₀ hne, map_one]
    rw [hδ] at hR
    refine ⟨PowerSeries.C δ⁻¹ * R, ?_⟩
    rw [Polynomial.coe_mul, Polynomial.coe_mul, Polynomial.coe_C, Polynomial.coe_X, theta_mul, theta_mul,
      theta_C, theta_X, Nat.cast_succ, hcast]
    linear_combination PowerSeries.X * PowerSeries.C δ⁻¹ * hR + PowerSeries.X ^ (k + 1 + 1) * hinv -
      PowerSeries.X * PowerSeries.C δ⁻¹ * (Λ : PowerSeries F) * h2
  shortest := fun σ hσ hsolves => h.length_le (hδ ▸ hne) hσ hsolves

/-- **Step lemma.** -/
theorem Inv.step [DecidableEq F] (hS : Binary S) {s : State F} (h : Inv S k s.Λ s.T s.l) :
    Inv S (k + 1) (s.step S (k + 1)).Λ (s.step S (k + 1)).T (s.step S (k + 1)).l := by
  unfold State.step
  dsimp only
  split
  next hδ => exact h.keep hδ
  next hδ =>
    split
    next hl => exact h.lengthen hS rfl hδ hl
    next hl => exact h.adjust hS rfl hδ (Nat.le_of_not_lt hl)

/-- **Run lemma.** -/
theorem inv_run [DecidableEq F] (hS : Binary S) (n : ℕ) :
    Inv S n (State.run S n).Λ (State.run S n).T (State.run S n).l := by
  induction n with
  | zero => exact Inv.init S hS
  | succ n ih =>
    have hrun : State.run S (n + 1) = (State.run S n).step S (n + 1) := by
      unfold State.run
      rw [List.range'_1_concat, List.foldl_append, Nat.add_comm 1 n]
      rfl
    rw [hrun]
    exact ih.step hS

/-- The last step at an even order changes nothing. -/
theorem Inv.solves_even (hS : Binary S) (h : Inv S k Λ T l) (hk : Even (k + 1)) : Solves S (k + 1) Λ := by
  obtain ⟨R, hR⟩ := h.solves
  obtain ⟨R₁, rfl⟩ := PowerSeries.X_dvd_iff.2 (hS.discrepancy_even h.one hR hk)
  exact ⟨R₁, by rw [hR, pow_succ _ (k + 1), mul_assoc]⟩

/-- The shortest solution has no square factor. -/
theorem squarefree_of_shortest (hΛ : Λ.coeff 0 = 1) (hsolves : Solves S n Λ)
    (hshort : ∀ σ : F[X], σ.coeff 0 = 1 → Solves S n σ → Λ.natDegree ≤ σ.natDegree) : Squarefree Λ := by
  rintro p ⟨q, hq⟩
  have hconst : p.coeff 0 * p.coeff 0 * q.coeff 0 = 1 := by
    rw [← hΛ, hq, mul_coeff_zero, mul_coeff_zero]
  have hp0 : p.coeff 0 ≠ 0 := by
    intro h
    simp [h] at hconst
  have hunit : (p : PowerSeries F) * (p : PowerSeries F)⁻¹ = 1 :=
    PowerSeries.mul_inv_cancel _ (by simpa using hp0)
  have hqs : Solves S n (C (p.coeff 0 * p.coeff 0) * q) := by
    obtain ⟨R, hR⟩ := hsolves
    have h2 : (2 : PowerSeries F) = 0 := CharTwo.two_eq_zero
    refine ⟨PowerSeries.C (p.coeff 0 * p.coeff 0) * ((p : PowerSeries F)⁻¹ * (p : PowerSeries F)⁻¹ * R), ?_⟩
    rw [hq, Polynomial.coe_mul, Polynomial.coe_mul, theta_mul, theta_mul] at hR
    rw [Polynomial.coe_mul, Polynomial.coe_C, theta_mul, theta_C]
    set P := (p : PowerSeries F)
    set c := PowerSeries.C (p.coeff 0 * p.coeff 0)
    linear_combination c * P⁻¹ ^ 2 * hR -
      c * ((q : PowerSeries F) * S - theta (q : PowerSeries F)) * (P * P⁻¹ + 1) * hunit +
      c * P⁻¹ ^ 2 * (q : PowerSeries F) * P * theta P * h2
  have hle := hshort _ (by rw [coeff_C_mul, hconst]) hqs
  have hp : p ≠ 0 := by
    rintro rfl
    exact hp0 (coeff_zero 0)
  have hq0 : q ≠ 0 := by
    rintro rfl
    simp at hconst
  rw [hq, natDegree_mul (mul_ne_zero hp hp) hq0, natDegree_mul hp hp] at hle
  have hC := natDegree_C_mul_le (p.coeff 0 * p.coeff 0) q
  refine isUnit_iff_degree_eq_zero.2 ?_
  rw [degree_eq_natDegree hp, show p.natDegree = 0 by omega, Nat.cast_zero]

/-- **What the recursion finds.** Of odd length, it finds a solution without square factors. -/
theorem run_solves [DecidableEq F] (hS : Binary S) {t : ℕ} (ht : 0 < t) :
    (State.run S (2 * t - 1)).Λ.coeff 0 = 1 ∧ Squarefree (State.run S (2 * t - 1)).Λ ∧
      Solves S (2 * t) (State.run S (2 * t - 1)).Λ := by
  have hinv := inv_run hS (2 * t - 1)
  have hsolves := hinv.solves_even hS (by rw [show 2 * t - 1 + 1 = 2 * t by omega]; exact even_two_mul t)
  rw [show 2 * t - 1 + 1 = 2 * t by omega] at hsolves
  refine ⟨hinv.one, squarefree_of_shortest hinv.one hsolves fun σ hσ hs => ?_, hsolves⟩
  exact hinv.degree.trans (hinv.shortest σ hσ (hs.mono (by omega)))

/-- Of the solutions of degree at most `t` without square factors it is the only one. -/
theorem run_eq [DecidableEq F] (hS : Binary S) {t : ℕ} (ht : 0 < t) (hσ : σ.coeff 0 = 1)
    (hsep : σ.Separable) (hsolves : Solves S (2 * t) σ) (hdeg : σ.natDegree ≤ t) :
    (State.run S (2 * t - 1)).Λ = σ := by
  have hinv := inv_run hS (2 * t - 1)
  obtain ⟨h1, -, hΛ⟩ := run_solves hS ht
  have hle := hinv.degree.trans (hinv.shortest σ hσ (hsolves.mono (by omega)))
  exact Solves.eq h1 hσ hsep hΛ hsolves hle (by omega)

/-- **Few places are located.** -/
theorem run_locator [DecidableEq F] {E : Finset F} (h0 : (0 : F) ∉ E) {t : ℕ} (ht : 0 < t)
    (hE : E.card ≤ t) : (State.run (powerSums E) (2 * t - 1)).Λ = locator E := by
  refine run_eq (powerSums_binary E) ht (coeff_zero_locator E) (separable_locator E) ⟨0, ?_⟩
    ((natDegree_locator h0).trans_le hE)
  rw [mul_zero, add_zero, locator_mul_powerSums]

/-- Few places whose power sums all vanish are none. -/
theorem eq_empty_of_powerSums {E : Finset F} (h0 : (0 : F) ∉ E) {t : ℕ} (hE : E.card ≤ t)
    (h : ∀ i ≤ 2 * t, PowerSeries.coeff i (powerSums E) = 0) : E = ∅ := by
  obtain ⟨R, hR⟩ : PowerSeries.X ^ (2 * t + 1) ∣ powerSums E :=
    PowerSeries.X_pow_dvd_iff.2 fun m hm => h m (Nat.le_of_lt_succ hm)
  have hone : Solves (powerSums E) (2 * t) (1 : F[X]) :=
    ⟨R, by rw [Polynomial.coe_one, one_mul, theta_one, zero_add, hR]⟩
  have heq := Solves.eq coeff_one_zero (coeff_zero_locator E) (separable_locator E) hone
    ⟨0, by rw [mul_zero, add_zero, locator_mul_powerSums]⟩ (by rw [natDegree_one]; exact Nat.zero_le _)
    (by rw [natDegree_one, natDegree_locator h0]; omega)
  have hcard := natDegree_locator h0
  rw [← heq, natDegree_one] at hcard
  exact Finset.card_eq_zero.1 hcard.symm

end Binary

end KeyEquation
