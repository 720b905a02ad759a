import Nctuns.Dvb.Bch
import Nctuns.Lib.KeyEquation

/-!
# Proofs about the error locator of the BCH decoder

The coefficients that the decoder computes with are those of polynomials, and its loop is the recursion
of `KeyEquation`, as long as the syndromes are the power sums of a binary word.
-/

namespace Dvb

open Polynomial KeyEquation

variable {F : Type*} [Field F]

namespace GaloisFieldPolynomial

variable {p q : GaloisFieldPolynomial F} {a x : F}

/-- The list of coefficients as a polynomial. -/
noncomputable def toPoly (p : GaloisFieldPolynomial F) : F[X] :=
  List.foldr (fun c acc => C c + X * acc) 0 p

@[simp] theorem toPoly_nil : toPoly ([] : GaloisFieldPolynomial F) = 0 := rfl

theorem toPoly_cons : toPoly (a :: p) = C a + X * toPoly p := rfl

theorem coeff_toPoly (p : GaloisFieldPolynomial F) (i : ℕ) : (toPoly p).coeff i = p.getD i 0 := by
  induction p generalizing i with
  | nil => simp
  | cons a p ih =>
    rw [toPoly_cons, coeff_add]
    cases i with
    | zero => simp
    | succ i => rw [coeff_C_succ, coeff_X_mul, ih, zero_add, List.getD_cons_succ]

theorem eval_toPoly (p : GaloisFieldPolynomial F) (x : F) : (toPoly p).eval x = p.eval x := by
  induction p with
  | nil => simp [eval]
  | cons a p ih =>
    have h : eval (a :: p) x = a + eval p x * x := rfl
    rw [toPoly_cons, eval_add, eval_C, eval_mul, eval_X, ih, h, mul_comm]

theorem toPoly_concat : toPoly (p ++ [a]) = toPoly p + C a * X ^ p.length := by
  induction p with
  | nil => simp [toPoly]
  | cons b p ih =>
    rw [List.cons_append, toPoly_cons, ih, toPoly_cons, List.length_cons, pow_succ]
    ring

theorem toPoly_addTo (p q : GaloisFieldPolynomial F) : toPoly (addTo p q) = toPoly p + toPoly q := by
  induction p generalizing q with
  | nil => rw [addTo, toPoly_nil, zero_add]
  | cons a p ih =>
    cases q with
    | nil => rw [addTo, toPoly_nil, add_zero]; exact List.cons_ne_nil a p
    | cons b q =>
      rw [addTo, toPoly_cons, toPoly_cons, toPoly_cons, ih, C_add]
      ring

theorem toPoly_times (p : GaloisFieldPolynomial F) (x : F) : toPoly (p.times x) = C x * toPoly p := by
  induction p with
  | nil => simp [times]
  | cons a p ih =>
    have h : times (a :: p) x = a * x :: times p x := rfl
    rw [h, toPoly_cons, ih, toPoly_cons, C_mul]
    ring

theorem toPoly_dividedBy (p : GaloisFieldPolynomial F) (x : F) :
    toPoly (p.dividedBy x) = C x⁻¹ * toPoly p := by
  have h : p.dividedBy x = p.times x⁻¹ := List.map_congr_left fun c _ => div_eq_mul_inv c x
  rw [h, toPoly_times]

theorem natDegree_toPoly_le (p : GaloisFieldPolynomial F) : (toPoly p).natDegree ≤ p.deg := by
  refine natDegree_le_iff_coeff_eq_zero.2 fun i hi => ?_
  unfold deg at hi
  rw [coeff_toPoly, List.getD_eq_default _ _ (by omega)]

/-- The highest coefficient is not zero. -/
def Simplified (p : GaloisFieldPolynomial F) : Prop := ∀ h : p ≠ [], p.getLast h ≠ 0

theorem Simplified.natDegree (hp : p.Simplified) : (toPoly p).natDegree = p.deg := by
  rcases eq_or_ne p [] with rfl | hne
  · simp [deg]
  · refine le_antisymm (natDegree_toPoly_le p) (le_natDegree_of_ne_zero ?_)
    have hlast := hp hne
    rw [List.getLast_eq_getElem] at hlast
    have hpos := List.length_pos_iff.2 hne
    rwa [coeff_toPoly, deg, List.getD_eq_getElem _ _ (by omega)]

theorem toPoly_shiftLeft_one (p : GaloisFieldPolynomial F) : toPoly (p.shiftLeft 1) = X * toPoly p := by
  unfold shiftLeft
  split
  next h => rw [h, toPoly_nil, mul_zero]
  next h =>
    rw [List.replicate_one, List.singleton_append, toPoly_cons, C_0, zero_add]

variable [DecidableEq F]

theorem toPoly_simplify (p : GaloisFieldPolynomial F) : toPoly p.simplify = toPoly p := by
  unfold simplify
  induction p using List.reverseRecOn with
  | nil => simp
  | append_singleton p a ih =>
    by_cases ha : a = 0
    · rw [List.rdropWhile_concat_pos (fun c => decide (c = 0)) p a (decide_eq_true ha), ih, toPoly_concat, ha, C_0, zero_mul,
        add_zero]
    · rw [List.rdropWhile_concat_neg _ _ _ (by simpa using ha)]

theorem simplified_simplify (p : GaloisFieldPolynomial F) : p.simplify.Simplified := by
  intro h h0
  exact List.rdropWhile_last_not _ _ h (decide_eq_true h0)

theorem toPoly_minus [CharP F 2] (p q : GaloisFieldPolynomial F) : toPoly (p.minus q) = toPoly p - toPoly q := by
  have h2 : (2 : F[X]) = 0 := by
    rw [← map_ofNat C 2, CharTwo.two_eq_zero, map_zero]
  rw [minus, toPoly_simplify, toPoly_addTo]
  linear_combination toPoly q * h2

end GaloisFieldPolynomial

namespace Bch

open GaloisFieldPolynomial

theorem foldl_range'_add (f : ℕ → F) (n : ℕ) :
    (List.range' 1 n).foldl (fun acc i => acc + f i) 0 = ∑ i ∈ Finset.range n, f (i + 1) := by
  induction n with
  | zero => rfl
  | succ n ih =>
    rw [List.range'_1_concat, List.foldl_append, ih, Finset.sum_range_succ, Nat.add_comm 1 n]
    rfl

variable [CharP F 2] {S : PowerSeries F} {_syndrome : ℕ → F} {v : Vars F} {s : State F} {k n : ℕ}

/-- The variables of the decoder are those of the recursion. -/
structure Follows (v : Vars F) (s : State F) : Prop where
  poly_lambda : v.poly_lambda.toPoly = s.Λ
  poly_t : v.poly_t.toPoly = s.T
  l : v.l = s.l
  simplified : v.poly_lambda.Simplified

/-- **Step 3.** `delta` is the discrepancy. -/
theorem Follows.delta_eq (h : Follows v s) (hinv : Inv S k s.Λ s.T s.l)
    (hS : ∀ i, 1 ≤ i → i ≤ k + 1 → _syndrome i = PowerSeries.coeff i S) :
    delta _syndrome v (k + 1) = PowerSeries.coeff (k + 1) ((s.Λ : PowerSeries F) * S) := by
  have hdeg := h.simplified.natDegree
  rw [h.poly_lambda] at hdeg
  have hle := hinv.degree
  have hlk := hinv.le
  unfold delta
  rw [foldl_range'_add fun i => v.poly_lambda.getD i 0 * _syndrome (k + 1 - i), h.l, ← hdeg,
    Nat.min_eq_right hle, PowerSeries.coeff_mul,
    Finset.Nat.sum_antidiagonal_eq_sum_range_succ
      (fun i j => PowerSeries.coeff i (s.Λ : PowerSeries F) * PowerSeries.coeff j S),
    Finset.sum_range_succ', CharTwo.sub_eq_add, add_comm]
  congr 1
  · refine Finset.sum_subset_zero_on_sdiff (Finset.range_mono (by omega)) (fun i hi => ?_) fun i hi => ?_
    · obtain ⟨-, hi⟩ := Finset.mem_sdiff.1 hi
      rw [Finset.mem_range, Nat.not_lt] at hi
      rw [Polynomial.coeff_coe, coeff_eq_zero_of_natDegree_lt (Nat.lt_succ_of_le hi), zero_mul]
    · have hi := Finset.mem_range.1 hi
      rw [Polynomial.coeff_coe, ← h.poly_lambda, coeff_toPoly, hS _ (by omega) (by omega)]
  · rw [Polynomial.coeff_coe, hinv.one, one_mul, Nat.sub_zero, hS _ (by omega) le_rfl]

variable [DecidableEq F]

/-- **Step lemma.** -/
theorem Follows.iterate (h : Follows v s) (hinv : Inv S k s.Λ s.T s.l)
    (hS : ∀ i, 1 ≤ i → i ≤ k + 1 → _syndrome i = PowerSeries.coeff i S) :
    Follows (iterate _syndrome v (k + 1)) (s.step S (k + 1)) := by
  have hdelta := h.delta_eq hinv hS
  have hlambda : (v.poly_lambda.minus (v.poly_t.times (delta _syndrome v (k + 1)))).toPoly =
      s.Λ - C (PowerSeries.coeff (k + 1) ((s.Λ : PowerSeries F) * S)) * s.T := by
    rw [toPoly_minus, toPoly_times, h.poly_lambda, h.poly_t, hdelta]
  unfold Bch.iterate State.step
  dsimp only
  rw [← hdelta] at hlambda ⊢
  by_cases hd : delta _syndrome v (k + 1) = 0
  · rw [if_neg (not_not.2 hd), if_pos hd]
    exact ⟨h.poly_lambda, by rw [toPoly_shiftLeft_one, h.poly_t], h.l, h.simplified⟩
  · rw [if_pos hd, if_neg hd, ← h.l]
    by_cases hl : 2 * v.l < k + 1
    · rw [if_pos hl, if_pos hl]
      exact ⟨hlambda, by rw [toPoly_shiftLeft_one, toPoly_dividedBy, h.poly_lambda], rfl, simplified_simplify _⟩
    · rw [if_neg hl, if_neg hl]
      exact ⟨hlambda, by rw [toPoly_shiftLeft_one, h.poly_t], rfl, simplified_simplify _⟩

/-- **Run lemma.** -/
theorem follows_run (hS : Binary S) (n : ℕ)
    (hsyn : ∀ i, 1 ≤ i → i ≤ n → _syndrome i = PowerSeries.coeff i S) :
    Follows ((List.range' 1 n).foldl (Bch.iterate _syndrome) ⟨[1], shiftLeft [1] 1, 0⟩)
      (State.run S n) := by
  induction n with
  | zero =>
    refine ⟨?_, ?_, rfl, fun _ => one_ne_zero⟩
    · simp [toPoly, State.run]
    · rw [List.range'_zero, List.foldl_nil, toPoly_shiftLeft_one]
      simp [toPoly, State.run]
  | succ n ih =>
    have hstep := (ih fun i h1 hi => hsyn i h1 (by omega)).iterate (inv_run hS n) hsyn
    unfold State.run at hstep ⊢
    rw [List.range'_1_concat, List.foldl_append, List.foldl_append, Nat.add_comm 1 n]
    exact hstep

/-- What the decoder takes for the error locator. -/
theorem toPoly_poly_lambda (hS : Binary S) {_t : ℕ}
    (hsyn : ∀ i, 1 ≤ i → i ≤ 2 * _t - 1 → _syndrome i = PowerSeries.coeff i S) :
    (poly_lambda _syndrome _t).toPoly = (State.run S (2 * _t - 1)).Λ ∧
      (poly_lambda _syndrome _t).Simplified := by
  have h := follows_run hS (2 * _t - 1) hsyn
  exact ⟨h.poly_lambda, h.simplified⟩

end Bch

end Dvb
