import Mathlib.Tactic.NormNum.Prime
import Nctuns.Dvb.Proofs.BchProofs
import Nctuns.Lib.BinaryField

/-!
# Proofs about the tables of the BCH codes

The generator polynomials vanish at the first `2 t` powers of `alpha`, and the polynomials of the fields
are primitive, so there are fields as `galois::GaloisField` makes them. Both are computed with the words
that stand for the elements.
-/

namespace Dvb

open BinaryField BinaryWord

variable {F : Type*} [Field F] {α : F}

/-- Coefficients in ascending order as the bits of a word. -/
def coeffWord (poly : List ℕ) : ℕ := poly.foldr (fun c acc => (if c ≠ 0 then 1 else 0) + 2 * acc) 0

theorem val_word (α : F) (poly : List ℕ) :
    val α (coeffWord poly) = poly.foldr (fun c acc => (if c ≠ 0 then 1 else 0) + α * acc) 0 := by
  induction poly with
  | nil => exact val_zero
  | cons c poly ih =>
    have hstep : coeffWord (c :: poly) = (if c ≠ 0 then 1 else 0) + 2 * coeffWord poly := rfl
    rw [List.foldr_cons, ← ih, hstep, val_eq]
    by_cases hc : c = 0
    · simp [hc]
    · have hmod : (1 + 2 * coeffWord poly) % 2 = 1 := by omega
      have hdiv : (1 + 2 * coeffWord poly) / 2 = coeffWord poly := by omega
      simp [hc, hmod, hdiv]

namespace BchMode

/-- The polynomials that the generator polynomial is a product of: the minimal ones of the odd powers of
    `alpha`. -/
def minimal : BchMode → List ℕ
  | DVB_BCH_GF14_T12 =>
    [16427, 18753, 17991, 21905, 27477, 25481, 27877, 20257, 17935, 23113, 22545, 26095]
  | _ => [65581, 65907, 69565, 88661, 73519, 128949, 110437, 95079, 69281, 95655, 80429, 72419]

theorem minimal_lt (mode : BchMode) : ∀ w ∈ mode.minimal, w < 2 ^ 17 := by
  cases mode <;> decide

/-- The tables of a mode: its polynomials have the roots, and the generator polynomial with its leading
    coefficient is the product of the first `t` of them. -/
theorem tables_computed (mode : BchMode) :
    (∀ i < 12, evalBits mode.m (coeffWord mode.prim_poly) (2 * i + 1) (mode.minimal.getD i 0) 17 0 = 0) ∧
      coeffWord (1 :: mode.gen_poly).reverse = product (mode.minimal.take mode.t) 17 ∧
      mode.gen_poly.length = mode.m * mode.t ∧ ∀ g ∈ mode.gen_poly, g < 2 := by
  cases mode <;> decide +kernel

theorem minimal_root (mode : BchMode) : ∀ i < 12,
    evalBits mode.m (coeffWord mode.prim_poly) (2 * i + 1) (mode.minimal.getD i 0) 17 0 = 0 :=
  (tables_computed mode).1

theorem product_minimal (mode : BchMode) :
    coeffWord (1 :: mode.gen_poly).reverse = product (mode.minimal.take mode.t) 17 :=
  (tables_computed mode).2.1

theorem length_gen_poly (mode : BchMode) : mode.gen_poly.length = mode.m * mode.t :=
  (tables_computed mode).2.2.1

theorem t_pos (mode : BchMode) : 0 < mode.t := by
  cases mode <;> decide

theorem gen_poly_lt_two (mode : BchMode) : ∀ g ∈ mode.gen_poly, g < 2 :=
  (tables_computed mode).2.2.2

theorem bytes (mode : BchMode) : 8 ∣ mode.m * mode.t := by
  cases mode <;> decide

section Field

variable (mode : BchMode) (gf : GaloisField mode.m mode.prim_poly F)

theorem two_eq_zero (mode : BchMode) (gf : GaloisField mode.m mode.prim_poly F) : (2 : F) = 0 := by
  have := gf.charTwo (by cases mode <;> decide)
  exact CharTwo.two_eq_zero

theorem val_prim_poly : val (gf.element 2) (coeffWord mode.prim_poly) = 0 := by
  rw [val_word]
  exact gf.root

/-- **The roots.** -/
theorem val_gen_poly {j : ℕ} (h1 : 1 ≤ j) (hj : j ≤ 2 * mode.t) :
    val (gf.element 2 ^ j) (coeffWord (1 :: mode.gen_poly).reverse) = 0 := by
  have h2 := mode.two_eq_zero gf
  have ht : mode.t ≤ 12 := by cases mode <;> decide
  have hlen : mode.minimal.length = 12 := by cases mode <;> rfl
  induction j using Nat.strong_induction_on with
  | _ j ih =>
    rcases Nat.even_or_odd' j with ⟨i, rfl | rfl⟩
    · rw [Nat.mul_comm, pow_mul, val_sq h2, ih i (by omega) (by omega) (by omega)]
      exact zero_pow two_ne_zero
    · have hi : i < mode.t := by omega
      rw [product_minimal, val_product h2 _ fun w hw => mode.minimal_lt w (List.mem_of_mem_take hw),
        List.prod_eq_zero_iff, List.mem_map]
      refine ⟨mode.minimal.getD i 0, ?_, ?_⟩
      · rw [List.getD_eq_getElem _ _ (by omega), List.mem_take_iff_getElem]
        exact ⟨i, by omega, rfl⟩
      · have hmem : mode.minimal.getD i 0 ∈ mode.minimal := by
          rw [List.getD_eq_getElem _ _ (by omega)]
          exact List.getElem_mem _
        have heval := val_evalBits (m := mode.m) (j := 2 * i + 1) (i := 0) h2 (mode.val_prim_poly gf)
          (by rw [Nat.zero_add]; exact mode.minimal_lt _ hmem)
        rw [mode.minimal_root i (by omega), val_zero, Nat.shiftRight_zero] at heval
        exact heval.symm

/-- What `Bch::init` is given is good for the encoder and the decoder. -/
theorem sound : (mode.bch gf).Sound where
  m_gt := by cases mode <;> decide
  m_le := by cases mode <;> decide
  t_pos := mode.t_pos
  size := rfl
  length := by
    have h := mode.length_gen_poly
    unfold bch Bch.init Bch._gen_poly_deg
    rw [List.take_of_length_le h.le, h]
  bits := fun g hg => mode.gen_poly_lt_two g (List.mem_of_mem_take hg)
  bytes := mode.bytes
  roots := by
    intro j h1 hj
    have hval := mode.val_gen_poly gf h1 hj
    have hlen := mode.length_gen_poly
    have hbits : (mode.bch gf).genBits = mode.gen_poly.map fun g => decide (g ≠ 0) := by
      unfold Bch.genBits bch Bch.init
      rw [List.take_of_length_le hlen.le]
    have hhorner : val (gf.element 2 ^ j) (coeffWord (1 :: mode.gen_poly).reverse) =
        horner (gf.element 2 ^ j) (true :: mode.gen_poly.map fun g => decide (g ≠ 0)) := by
      rw [val_word, List.foldr_reverse, show (true :: mode.gen_poly.map fun g => decide (g ≠ 0)) =
        (1 :: mode.gen_poly).map fun g => decide (g ≠ 0) from rfl]
      unfold horner
      rw [List.foldl_map]
      simp only [add_comm, mul_comm, decide_eq_true_eq]
    rw [hhorner, horner_cons, if_pos rfl, List.length_map, hlen] at hval
    rw [hbits]
    have h2 := mode.two_eq_zero gf
    have hgf : (mode.bch gf)._galois_field = gf := rfl
    have hdeg : (mode.bch gf)._gen_poly_deg = mode.m * mode.t := rfl
    rw [hgf, hdeg]
    linear_combination hval - (gf.element 2 ^ j) ^ (mode.m * mode.t) * h2

end Field

/-! ### The fields -/

/-- A prime factor of a product of primes is one of them. -/
theorem eq_of_prime_dvd {q : ℕ} (hq : q.Prime) {ps : List ℕ} (hps : ∀ p ∈ ps, p.Prime)
    (hdvd : q ∣ ps.prod) : q ∈ ps := by
  obtain ⟨p, hp, hqp⟩ := (Prime.dvd_prod_iff hq.prime).1 hdvd
  rwa [(Nat.prime_dvd_prime_iff_eq hq (hps p hp)).1 hqp]

/-- The field polynomials are primitive. -/
theorem primitive (mode : BchMode) : Primitive mode.m (coeffWord mode.prim_poly) := by
  have h14 : Primitive 14 16427 := by
    refine ⟨by decide, by decide, by decide, by decide +kernel, fun q hq hdvd => ?_⟩
    have hprimes : ∀ p ∈ [3, 43, 127], p.Prime := by
      simp only [List.mem_cons, List.not_mem_nil, or_false, forall_eq_or_imp, forall_eq]
      norm_num
    have hmem := eq_of_prime_dvd hq hprimes hdvd
    simp only [List.mem_cons, List.not_mem_nil, or_false] at hmem
    rcases hmem with rfl | rfl | rfl
    · exact ⟨8648, by decide, by decide +kernel⟩
    · exact ⟨11854, by decide, by decide +kernel⟩
    · exact ⟨4380, by decide, by decide +kernel⟩
  have h16 : Primitive 16 65581 := by
    refine ⟨by decide, by decide, by decide, by decide +kernel, fun q hq hdvd => ?_⟩
    have hprimes : ∀ p ∈ [3, 5, 17, 257], p.Prime := by
      simp only [List.mem_cons, List.not_mem_nil, or_false, forall_eq_or_imp, forall_eq]
      norm_num
    have hmem := eq_of_prime_dvd hq hprimes hdvd
    simp only [List.mem_cons, List.not_mem_nil, or_false] at hmem
    rcases hmem with rfl | rfl | rfl | rfl
    · exact ⟨44234, by decide, by decide +kernel⟩
    · exact ⟨15375, by decide, by decide +kernel⟩
    · exact ⟨32631, by decide, by decide +kernel⟩
    · exact ⟨43632, by decide, by decide +kernel⟩
  cases mode with
  | DVB_BCH_GF14_T12 => exact h14
  | DVB_BCH_GF16_T12 => exact h16
  | DVB_BCH_GF16_T10 => exact h16
  | DVB_BCH_GF16_T8 => exact h16

/-- **There are such fields.** -/
theorem exists_field (mode : BchMode) : Nonempty (GaloisField mode.m mode.prim_poly (Gf mode.m)) := by
  classical
  obtain ⟨α, hα, hinj, hsurj, hbij⟩ := mode.primitive.exists_field
  have h2 : (2 : Gf mode.m) = 0 := CharTwo.two_eq_zero
  have hα0 : α ≠ 0 := by
    rintro rfl
    have hone := mode.primitive.pow_root h2 hα
    rw [zero_pow (by cases mode <;> decide)] at hone
    exact zero_ne_one hone
  refine ⟨{
    element := val α
    index := fun a => if h : a = 0 then 0 else (hsurj a h).choose
    element_one := val_one
    element_xor := fun a _ b _ => val_xor h2 α a b
    element_bij := hbij
    root := ?_
    index_lt := fun a ha => ?_
    alpha_pow_index := fun a ha => ?_
    index_alpha_pow := fun i hi => ?_ }⟩
  · rw [val_two, ← val_word]
    exact hα
  · rw [dif_neg ha]
    exact (hsurj a ha).choose_spec.1
  · rw [dif_neg ha, val_two]
    exact (hsurj a ha).choose_spec.2
  · have hne : val α 2 ^ i ≠ 0 := by
      rw [val_two]
      exact pow_ne_zero i hα0
    have hspec := (hsurj _ hne).choose_spec
    rw [dif_neg hne]
    exact hinj _ hspec.1 _ hi (by rw [hspec.2, val_two])

/-- The lengths of the coded blocks are such that the encoder takes them, and have room for the rest. -/
theorem coded_fits (ct : CodingType) :
    (_bch_mode_table ct).m * (_bch_mode_table ct).t + ct.bchUncoded = ct.bchCoded ∧
      ct.bchCoded ≤ 2 ^ (_bch_mode_table ct).m - 1 ∧ 8 ∣ ct.bchCoded := by
  cases ct <;> decide

/-- **Error correction.** For every table, every message and at most `t` errors anywhere in its codeword,
    the decoder restores the codeword and returns zero. -/
theorem decoder_corrects (mode : BchMode) {F : Type*} [Field F] [DecidableEq F]
    (gf : GaloisField mode.m mode.prim_poly F) (block : List (BitVec 8)) (n : ℕ)
    (h : (mode.bch gf).Fits block n) :
    ∃ c, (mode.bch gf).encoder block n = .ok c ∧
      (∀ i < n - mode.m * mode.t, _bit c i = _bit block i) ∧
      ∀ errors : List ℕ, (∀ i ∈ errors, i < n) → errors.length ≤ mode.t →
        (mode.bch gf).decoder (errors.foldl BitBuffer.toggle c) n = .ok (0, c) := by
  obtain ⟨c, hc, -, hmsg, -, -⟩ := (mode.sound gf).encoder_eq h
  exact ⟨c, hc, hmsg, fun errors herr hlen => (mode.sound gf).decoder_corrupt h hc herr hlen⟩

/-- A block of twenty two bytes for the shorter code. -/
theorem zeros_fit (gf : GaloisField DVB_BCH_GF14_T12.m DVB_BCH_GF14_T12.prim_poly (Gf 14)) :
    (DVB_BCH_GF14_T12.bch gf).Fits (List.replicate 22 0) 176 :=
  ⟨show 168 ≤ 176 by decide, show 176 ≤ 2 ^ 14 - 1 by decide, by decide, by decide⟩

/-- Three wrong bits in the code word of a block of zeros. -/
theorem decoder_corrects_zeros :
    ∃ gf : GaloisField DVB_BCH_GF14_T12.m DVB_BCH_GF14_T12.prim_poly (Gf 14),
    ∃ _ : DecidableEq (Gf 14), ∃ c,
      (DVB_BCH_GF14_T12.bch gf).encoder (List.replicate 22 0) 176 = .ok c ∧
      (DVB_BCH_GF14_T12.bch gf).decoder ([3, 90, 175].foldl BitBuffer.toggle c) 176 = .ok (0, c) := by
  classical
  obtain ⟨gf⟩ := exists_field DVB_BCH_GF14_T12
  obtain ⟨c, hc, -, hdec⟩ := decoder_corrects DVB_BCH_GF14_T12 gf (List.replicate 22 0) 176 (zeros_fit gf)
  exact ⟨gf, inferInstance, c, hc, hdec _ (by decide) (by decide)⟩

/-- One error is corrected, and the decoder returns zero, not one. -/
theorem one_error_not_counted : ¬ ∀ (mode : BchMode) (F : Type) [Field F] [DecidableEq F]
    (gf : GaloisField mode.m mode.prim_poly F) (block : List (BitVec 8)) (n : ℕ),
    (mode.bch gf).Fits block n → ∀ c, (mode.bch gf).encoder block n = .ok c →
      ∀ errors : List ℕ, errors.Nodup → (∀ i ∈ errors, i < n) → errors.length ≤ mode.t →
        (mode.bch gf).decoder (errors.foldl BitBuffer.toggle c) n = .ok ((errors.length : Int), c) := by
  classical
  intro h
  obtain ⟨gf⟩ := exists_field DVB_BCH_GF14_T12
  have hfits := zeros_fit gf
  obtain ⟨c, hc, -⟩ := (sound DVB_BCH_GF14_T12 gf).encoder_eq hfits
  have hone := h DVB_BCH_GF14_T12 (Gf 14) gf _ _ hfits c hc [0] (by decide) (by decide) (by decide)
  have hzero := (sound DVB_BCH_GF14_T12 gf).decoder_corrupt hfits hc
    (show ∀ i ∈ [0], i < 176 by decide) (show 1 ≤ 12 by decide)
  exact absurd (Prod.mk.inj (Except.ok.inj (hzero.symm.trans hone))).1 (by decide)

end BchMode

end Dvb
