import Nctuns.Dvb.Proofs.BchTableProofs

/-!
# Proofs about failures of the BCH decoder

The decoder flips bits while it goes through the roots of the locator, and gives up at the first root that
belongs to a place past the block. So a word that it gives up on is intact unless the first root of all
is one of the block.
-/

namespace Dvb

open BitBuffer BinaryWord KeyEquation GaloisFieldPolynomial Polynomial

variable {m : ℕ} {prim_poly : List ℕ} {F : Type*} [Field F]

namespace Bch

variable {b : Bch m prim_poly F} {n : ℕ} {block : List (BitVec 8)}

/-- The symbol `i` is a root that belongs to a place past a block of `n` bits. -/
def PastRoot (b : Bch m prim_poly F) (n : ℕ) (σ : F[X]) (i : ℕ) : Prop :=
  σ.eval (b._galois_field.element i) = 0 ∧
    n ≤ b._galois_field.index (b._galois_field.element i)⁻¹

/-- The symbol `i` is a root that belongs to a bit of the block. -/
def InnerRoot (b : Bch m prim_poly F) (n : ℕ) (σ : F[X]) (i : ℕ) : Prop :=
  σ.eval (b._galois_field.element i) = 0 ∧
    b._galois_field.index (b._galois_field.element i)⁻¹ < n

/-- The first root belongs to a bit of the block, and another one to a place past it. -/
def Torn (b : Bch m prim_poly F) (n : ℕ) (σ : F[X]) : Prop :=
  ∃ i < 2 ^ m, b.InnerRoot n σ i ∧ (∀ j < i, σ.eval (b._galois_field.element j) ≠ 0) ∧
    ∃ j < 2 ^ m, b.PastRoot n σ j

theorem perfectField (b : Bch m prim_poly F) : PerfectField F := by
  have hfin : Finite F := by
    have h := b._galois_field.element_bij
    have := (Set.finite_Iio (2 ^ m)).image b._galois_field.element
    rw [h.image_eq] at this
    exact Set.finite_univ_iff.1 this
  exact PerfectField.ofFinite

/-- The loop over the roots goes on up to the first one past the block. -/
theorem correct_cases (b : Bch m prim_poly F) (n : ℕ) (roots : List F) (block : List (BitVec 8)) :
    (∀ x ∈ roots, b.err_bit n x < n) ∨ ∃ inner x rest, roots = inner ++ x :: rest ∧
      (∀ y ∈ inner, b.err_bit n y < n) ∧ n ≤ b.err_bit n x ∧
      b.correct n roots block = (-1, (inner.map (b.err_bit n)).foldl toggle block) := by
  induction roots generalizing block with
  | nil => exact .inl (by simp)
  | cons x roots ih =>
    rcases Nat.lt_or_ge (b.err_bit n x) n with hlt | hge
    · rcases ih (toggle block (b.err_bit n x)) with hall | ⟨inner, y, rest, rfl, hinner, hy, heq⟩
      · exact .inl (List.forall_mem_cons.2 ⟨hlt, hall⟩)
      · refine .inr ⟨x :: inner, y, rest, rfl, List.forall_mem_cons.2 ⟨hlt, hinner⟩, hy, ?_⟩
        rw [correct, if_neg (Nat.not_le.2 hlt), heq, List.map_cons, List.foldl_cons]
    · exact .inr ⟨[], x, roots, rfl, by simp, hge, by rw [correct, if_pos hge]; rfl⟩

/-- A root is corrected if it belongs to a bit of the block. -/
theorem Sound.err_bit_lt_iff (hb : b.Sound) (hn : n ≤ b._n) {x : F} (hx : x ≠ 0) :
    b.err_bit n x < n ↔ b._galois_field.index x⁻¹ < n := by
  have hindex := b._galois_field.index_lt _ (inv_ne_zero hx)
  have hsize := hb.size
  have hm : 2 ^ m ≤ 2 ^ 31 := Nat.pow_le_pow_right (by decide) hb.m_le
  constructor
  · intro h
    by_contra hge
    exact absurd (err_bit_of_ge (Nat.le_of_not_lt hge) (by omega) (by omega)) (Nat.not_le.2 h)
  · intro h
    rw [err_bit_of_lt h (by omega)]
    omega

/-- Different roots of the block belong to different bits. -/
theorem Sound.err_bit_injective (hb : b.Sound) (hn : n ≤ b._n) {x y : F} (hx : x ≠ 0) (hy : y ≠ 0)
    (hxn : b.err_bit n x < n) (h : b.err_bit n x = b.err_bit n y) : x = y := by
  have hsize := hb.size
  have hm : 2 ^ m ≤ 2 ^ 31 := Nat.pow_le_pow_right (by decide) hb.m_le
  have hix := (hb.err_bit_lt_iff hn hx).1 hxn
  have hiy := (hb.err_bit_lt_iff hn hy).1 (h ▸ hxn)
  rw [err_bit_of_lt hix (by omega), err_bit_of_lt hiy (by omega)] at h
  have heq : b._galois_field.index x⁻¹ = b._galois_field.index y⁻¹ := by omega
  rw [← inv_inj, ← b._galois_field.alpha_pow_index _ (inv_ne_zero hx), heq,
    b._galois_field.alpha_pow_index _ (inv_ne_zero hy)]

/-- Bits that are flipped once are changed. -/
theorem foldl_toggle_ne {js : List ℕ} {j : ℕ} (hnodup : (j :: js).Nodup)
    (h : ∀ i ∈ j :: js, i / 8 < block.length) : (j :: js).foldl toggle block ≠ block := by
  intro heq
  have hbit := msb_foldl_toggle (i := j) (j :: js) h
  rw [heq, odd_of_nodup hnodup, decide_eq_true List.mem_cons_self, Bool.xor_true] at hbit
  cases hm : msb block j <;> rw [hm] at hbit <;> exact absurd hbit (by decide)

/-- A constant locator has no roots. -/
theorem not_torn_one : ¬ b.Torn n 1 := by
  rintro ⟨i, -, ⟨hroot, -⟩, -⟩
  rw [eval_one] at hroot
  exact one_ne_zero hroot

variable [DecidableEq F]

/-- The power sums of the bits of a word. -/
noncomputable def wordSums (b : Bch m prim_poly F) (block : List (BitVec 8)) (n : ℕ) : PowerSeries F :=
  powerSums (places (b._galois_field.element 2) n (_bit block))

/-- An error locator of the word: a polynomial without square factors, of degree at most `_t`, that meets
    the key equation. -/
structure Locates (b : Bch m prim_poly F) (block : List (BitVec 8)) (n : ℕ) (σ : F[X]) : Prop where
  one : σ.coeff 0 = 1
  squarefree : Squarefree σ
  degree : σ.natDegree ≤ b._t
  solves : Solves (b.wordSums block n) (2 * b._t) σ

theorem Sound.syndrome_eq (hb : b.Sound) (hn : n ≤ b._n) (block : List (BitVec 8)) {i : ℕ} (hi : 1 ≤ i) :
    b._syndrome block n i = PowerSeries.coeff i (b.wordSums block n) := by
  rw [_syndrome_eq, wordSums, ← horner_pow_eq (b._galois_field.distinct (hn.trans_eq hb.size)) _ (by omega)]

/-- The remainder of the power `n`. -/
def remainder (b : Bch m prim_poly F) (n : ℕ) : List Bool :=
  (true :: List.replicate (n - b._gen_poly_deg) false).foldl b.shift
    (List.replicate b._gen_poly_deg false)

/-- The remainder of the power `n` as a word of `n` bits, with its last bit flipped. -/
def tornBits (b : Bch m prim_poly F) (n i : ℕ) : Bool :=
  (List.replicate (n - b._gen_poly_deg) false ++ b.remainder n).getD i false ^^ decide (i = n - 1)

/-- A block with the bits set that its locator names. -/
def tornBlock (b : Bch m prim_poly F) (n : ℕ) : List (BitVec 8) :=
  ((List.range n).filter (b.tornBits n)).foldl toggle (List.replicate (n / 8 + 1) 0)

/-- What the recursion finds is the only locator. -/
theorem Locates.eq (hb : b.Sound) {σ : F[X]} (h : b.Locates block n σ) :
    (State.run (b.wordSums block n) (2 * b._t - 1)).Λ = σ := by
  have := b._galois_field.charTwo (Nat.lt_trans Nat.zero_lt_one hb.m_gt)
  have := b.perfectField
  exact run_eq (powerSums_binary _) hb.t_pos h.one
    (PerfectField.separable_iff_squarefree.2 h.squarefree) h.solves h.degree

/-- The roots in the order of their symbols. -/
theorem roots_eq_map (b : Bch m prim_poly F) (lambda : GaloisFieldPolynomial F) :
    ∃ is : List ℕ, b.roots lambda = is.map b._galois_field.element ∧ is.Pairwise (· < ·) ∧
      ∀ i, i ∈ is ↔ i < 2 ^ m ∧ lambda.toPoly.eval (b._galois_field.element i) = 0 := by
  refine ⟨(List.range (2 ^ m)).filter fun i => lambda.eval (b._galois_field.element i) = 0, ?_, ?_, ?_⟩
  · unfold roots
    rw [List.filter_map]
    rfl
  · exact List.pairwise_lt_range.filter _
  · intro i
    rw [List.mem_filter, List.mem_range, decide_eq_true_iff, eval_toPoly]

/-- **The loop over the roots.** It gives up with the block changed exactly where the first root belongs to
    a bit of the block and another one does not. -/
theorem Sound.correct_intact_iff (hb : b.Sound) (hn : n ≤ b._n) (hlen : n ≤ 8 * block.length)
    {lambda : GaloisFieldPolynomial F} (hone : lambda.toPoly.coeff 0 = 1) :
    (∀ r, b.correct n (b.roots lambda) block = (-1, r) → r = block) ↔ ¬ b.Torn n lambda.toPoly := by
  obtain ⟨is, hroots, hsorted, his⟩ := b.roots_eq_map lambda
  have hne : ∀ x ∈ b.roots lambda, x ≠ 0 := by
    rintro x hx rfl
    have h := mem_roots.1 hx
    rw [← coeff_zero_eq_eval_zero, hone] at h
    exact one_ne_zero h
  have hpast : ∀ i, i < 2 ^ m → b.PastRoot n lambda.toPoly i →
      b._galois_field.element i ∈ b.roots lambda ∧ ¬ b.err_bit n (b._galois_field.element i) < n := by
    rintro i hi ⟨hroot, hindex⟩
    have hmem := (mem_roots (b := b)).2 hroot
    exact ⟨hmem, fun hlt => absurd ((hb.err_bit_lt_iff hn (hne _ hmem)).1 hlt) (Nat.not_lt.2 hindex)⟩
  rcases b.correct_cases n (b.roots lambda) block with hall | ⟨inner, x, rest, hsplit, hinner, hx, heq⟩
  · refine iff_of_true (fun r hr => ?_) ?_
    · rw [correct_of_lt hall] at hr
      exact absurd (Prod.mk.inj hr).1 (by decide)
    · rintro ⟨-, -, -, -, j, hj, hjpast⟩
      obtain ⟨hmem, hnot⟩ := hpast j hj hjpast
      exact hnot (hall _ hmem)
  · have hxmem : x ∈ b.roots lambda := by
      rw [hsplit]
      exact List.mem_append_right _ List.mem_cons_self
    have hxpast : n ≤ b._galois_field.index x⁻¹ :=
      Nat.le_of_not_lt fun hlt => absurd ((hb.err_bit_lt_iff hn (hne x hxmem)).2 hlt) (Nat.not_lt.2 hx)
    -- the first symbol is the least one
    cases is with
    | nil =>
      rw [hroots] at hsplit
      exact absurd hsplit.symm (by simp)
    | cons i is =>
      have hleast : ∀ j < i, lambda.toPoly.eval (b._galois_field.element j) ≠ 0 := by
        intro j hj hroot
        have hi := ((his i).1 List.mem_cons_self).1
        rcases List.mem_cons.1 ((his j).2 ⟨hj.trans hi, hroot⟩) with rfl | hmem
        · exact Nat.lt_irrefl _ hj
        · exact Nat.lt_asymm hj (List.rel_of_pairwise_cons hsorted hmem)
      obtain ⟨hi, hiroot⟩ := (his i).1 List.mem_cons_self
      rw [hroots, List.map_cons] at hsplit
      cases inner with
      | nil =>
        obtain ⟨rfl, -⟩ := List.cons.inj hsplit
        refine iff_of_true (fun r hr => ?_) ?_
        · rw [heq] at hr
          exact (Prod.mk.inj hr).2.symm
        · rintro ⟨j, hj, ⟨hjroot, hjin⟩, hjleast, -⟩
          rcases Nat.lt_trichotomy i j with hlt | rfl | hgt
          · exact hjleast i hlt hiroot
          · exact absurd hjin (Nat.not_lt.2 hxpast)
          · exact hleast j hgt hjroot
      | cons y inner =>
        rw [List.cons_append] at hsplit
        obtain ⟨rfl, hrest⟩ := List.cons.inj hsplit
        have hymem := (mem_roots (b := b)).2 hiroot
        have hmem : ∀ z ∈ b._galois_field.element i :: inner, z ∈ b.roots lambda := by
          intro z hz
          rw [hroots, List.map_cons, hrest, ← List.cons_append]
          exact List.mem_append_left _ hz
        have hnodup : ((b._galois_field.element i :: inner).map (b.err_bit n)).Nodup := by
          refine List.Nodup.map_on (fun z hz z' hz' h => ?_) ?_
          · exact hb.err_bit_injective hn (hne z (hmem z hz)) (hne z' (hmem z' hz')) (hinner z hz) h
          · have h := b.nodup_roots lambda
            rw [hroots, List.map_cons, hrest, ← List.cons_append] at h
            exact (List.nodup_append.1 h).1
        refine iff_of_false (fun h => ?_) (not_not.2 ⟨i, hi, ⟨hiroot, ?_⟩, hleast, ?_⟩)
        · refine foldl_toggle_ne hnodup (fun p hp => ?_) (h _ heq)
          rw [← List.map_cons] at hp
          obtain ⟨z, hz, rfl⟩ := List.mem_map.1 hp
          have := hinner z hz
          omega
        · exact (hb.err_bit_lt_iff hn (hne _ hymem)).1 (hinner _ List.mem_cons_self)
        · rw [hroots] at hxmem
          obtain ⟨j, hj, rfl⟩ := List.mem_map.1 hxmem
          obtain ⟨hj, hjroot⟩ := (his j).1 hj
          exact ⟨j, hj, hjroot, hxpast⟩

/-- **Failures.** A word on which the decoder gives up is left intact exactly if its locator is not torn. -/
theorem Sound.decoder_intact_iff (hb : b.Sound) (hn : n ≤ b._n) (hlen : n ≤ 8 * block.length) :
    (∀ r, b.decoder block n = .ok (-1, r) → r = block) ↔
      ∀ σ, b.Locates block n σ → ¬ b.Torn n σ := by
  have := b._galois_field.charTwo (Nat.lt_trans Nat.zero_lt_one hb.m_gt)
  have hsyn : ∀ i, 1 ≤ i → b._syndrome block n i = PowerSeries.coeff i (b.wordSums block n) :=
    fun i hi => hb.syndrome_eq hn block hi
  obtain ⟨hpoly, hsimp⟩ := toPoly_poly_lambda (powerSums_binary _) fun i h1 (_ : i ≤ 2 * b._t - 1) => hsyn i h1
  obtain ⟨hone, hsq, hsolves⟩ := run_solves (powerSums_binary
    (places (b._galois_field.element 2) n (_bit block))) hb.t_pos
  have hdeg := hsimp.natDegree
  have heq : ∀ σ, b.Locates block n σ → σ = (poly_lambda (b._syndrome block n) b._t).toPoly := by
    intro σ hσ
    rw [hpoly]
    exact (hσ.eq hb).symm
  by_cases hzero : ∀ i, 1 ≤ i → i ≤ 2 * b._t → b._syndrome block n i = 0
  · refine iff_of_true (fun r hr => ?_) fun σ hσ => ?_
    · rw [decoder_of_zero hn hzero] at hr
      exact absurd (Prod.mk.inj (Except.ok.inj hr)).1 (by decide)
    · obtain ⟨R, hR⟩ : PowerSeries.X ^ (2 * b._t + 1) ∣ b.wordSums block n := by
        refine PowerSeries.X_pow_dvd_iff.2 fun i hi => ?_
        rcases Nat.eq_zero_or_pos i with rfl | hpos
        · rw [PowerSeries.coeff_zero_eq_constantCoeff_apply]
          exact (powerSums_binary _).zero
        · rw [← hsyn i hpos, hzero i hpos (by omega)]
      have hloc : b.Locates block n 1 := by
        refine ⟨coeff_one_zero, squarefree_one, by rw [natDegree_one]; exact Nat.zero_le _, R, ?_⟩
        rw [Polynomial.coe_one, one_mul, theta_one, zero_add, hR]
      rw [heq σ hσ, ← heq 1 hloc]
      exact not_torn_one
  · push Not at hzero
    obtain ⟨i, h1, hi, hne⟩ := hzero
    rw [decoder_of_err hn h1 hi hne]
    by_cases hfail : (poly_lambda (b._syndrome block n) b._t).deg < 1 ∨
        (poly_lambda (b._syndrome block n) b._t).deg > b._t
    · rw [if_pos hfail]
      refine iff_of_true (fun r hr => (Prod.mk.inj (Except.ok.inj hr)).2.symm) fun σ hσ => ?_
      have hσdeg := hσ.degree
      have hσ0 := heq σ hσ
      rw [← hσ0] at hdeg
      obtain ⟨c, hc⟩ := natDegree_eq_zero.1 (show σ.natDegree = 0 by omega)
      have h1 := hσ.one
      rw [← hc, coeff_C_zero] at h1
      rw [← hc, h1, C_1]
      exact not_torn_one
    · rw [if_neg hfail]
      rw [not_or, Nat.not_lt, Nat.not_lt] at hfail
      have hloc : b.Locates block n (poly_lambda (b._syndrome block n) b._t).toPoly := by
        refine ⟨by rw [hpoly]; exact hone, by rw [hpoly]; exact hsq, hdeg.trans_le hfail.2, ?_⟩
        rw [hpoly]
        exact hsolves
      have hcorrect := hb.correct_intact_iff hn hlen hloc.one
      constructor
      · intro h σ hσ
        rw [heq σ hσ]
        exact hcorrect.1 fun r hr => h r (congrArg Except.ok hr)
      · intro h r hr
        exact hcorrect.2 (h _ hloc) r (Except.ok.inj hr)

/-! ### A torn word -/

omit [DecidableEq F] in
/-- The register behind a message whose only bit stands for the power `n`. -/
theorem Sound.horner_remainder [CharP F 2] (hb : b.Sound) (hr : b._gen_poly_deg ≤ n) {x : F}
    (hx : horner x b.genBits = x ^ b._gen_poly_deg) :
    (b.remainder n).length = b._gen_poly_deg ∧ horner x (b.remainder n) = x ^ n := by
  obtain ⟨hlen, hval⟩ := hb.horner_run (true :: List.replicate (n - b._gen_poly_deg) false)
    (List.length_replicate (n := b._gen_poly_deg) (a := false)) hx
  refine ⟨hlen, ?_⟩
  rw [remainder, hval, horner_replicate_false, zero_mul, zero_add, horner_cons, if_pos rfl,
    horner_replicate_false, add_zero, List.length_replicate, ← pow_add]
  congr 1
  omega

omit [DecidableEq F] in
theorem bit_tornBlock {i : ℕ} (hi : i < n) : _bit (b.tornBlock n) i = b.tornBits n i := by
  have hnodup : ((List.range n).filter (b.tornBits n)).Nodup := List.nodup_range.filter _
  have hzero : msb (List.replicate (n / 8 + 1) 0) i = false := by
    unfold msb
    rw [List.getD_replicate _ (by omega)]
    simp
  have hplace : ∀ j ∈ (List.range n).filter (b.tornBits n),
      j / 8 < (List.replicate (n / 8 + 1) (0 : BitVec 8)).length := by
    intro j hj
    have := List.mem_range.1 (List.mem_filter.1 hj).1
    rw [List.length_replicate]
    omega
  rw [_bit_eq, tornBlock, msb_foldl_toggle _ hplace, hzero, Bool.false_xor, odd_of_nodup hnodup,
    Bool.eq_iff_iff, decide_eq_true_iff, List.mem_filter, List.mem_range]
  exact and_iff_right hi

omit [DecidableEq F] in
/-- The value of the torn word is that of two errors, the second of them past the block. -/
theorem Sound.horner_tornBlock [CharP F 2] (hb : b.Sound) (hr : b._gen_poly_deg ≤ n) {x : F}
    (hx : horner x b.genBits = x ^ b._gen_poly_deg) :
    horner x ((List.range n).map (_bit (b.tornBlock n))) = 1 + x ^ n := by
  obtain ⟨hlen, hval⟩ := hb.horner_remainder hr hx
  have hpos : 0 < b._gen_poly_deg := Nat.mul_pos (Nat.lt_trans Nat.zero_lt_one hb.m_gt) hb.t_pos
  have hbits : (List.range n).map (_bit (b.tornBlock n)) = (List.range n).map fun i =>
      (List.replicate (n - b._gen_poly_deg) false ++ b.remainder n).getD i false ^^ decide (i = n - 1) :=
    List.map_congr_left fun i hi => bit_tornBlock (List.mem_range.1 hi)
  have hword : (List.range n).map (fun i =>
      (List.replicate (n - b._gen_poly_deg) false ++ b.remainder n).getD i false) =
      List.replicate (n - b._gen_poly_deg) false ++ b.remainder n := by
    have hlength : (List.replicate (n - b._gen_poly_deg) false ++ b.remainder n).length = n := by
      rw [List.length_append, List.length_replicate, hlen]
      omega
    refine List.ext_getElem (by rw [List.length_map, List.length_range, hlength]) fun i hi hi' => ?_
    rw [List.getElem_map, List.getElem_range, List.getD_eq_getElem _ _ hi']
  have hlast : horner x ((List.range n).map fun i => decide (i = n - 1)) = 1 := by
    rw [horner_map_range, Finset.sum_eq_single (n - 1)]
    · simp
    · intro i _ hi
      simp [hi]
    · intro h
      exact absurd (Finset.mem_range.2 (by omega)) h
  rw [hbits, horner_xor, hword, hlast, horner_append, horner_replicate_false, zero_mul, zero_add, hval,
    add_comm]

/-- **A torn word.** In a shortened code there is a word whose locator has its first root in the block and
    the other one past it. -/
theorem Sound.torn (hb : b.Sound) (ht : 2 ≤ b._t) (hr : b._gen_poly_deg ≤ n) (hn : n < b._n) :
    ∃ σ, b.Locates (b.tornBlock n) n σ ∧ b.Torn n σ := by
  have := b._galois_field.charTwo (Nat.lt_trans Nat.zero_lt_one hb.m_gt)
  have hpos : 0 < b._gen_poly_deg := Nat.mul_pos (Nat.lt_trans Nat.zero_lt_one hb.m_gt) hb.t_pos
  have hsize := hb.size
  set α := b._galois_field.element 2 with hα
  have hα0 : α ≠ 0 := b._galois_field.alpha_ne_zero hb.m_gt
  have hone : b._galois_field.index 1 = 0 := by
    have h := b._galois_field.index_alpha_pow 0 (by omega)
    rwa [pow_zero] at h
  have hindex : b._galois_field.index (α ^ n) = n := b._galois_field.index_alpha_pow n (by omega)
  have hne : (1 : F) ≠ α ^ n := by
    intro h
    rw [← h, hone] at hindex
    omega
  set E : Finset F := {1, α ^ n} with hE
  have h0 : (0 : F) ∉ E := by
    rw [hE, Finset.mem_insert, Finset.mem_singleton, not_or]
    exact ⟨zero_ne_one, (pow_ne_zero n hα0).symm⟩
  have hcard : E.card = 2 := Finset.card_pair hne
  have hsums : ∀ i ≤ 2 * b._t, PowerSeries.coeff i (b.wordSums (b.tornBlock n) n - powerSums E) = 0 := by
    intro i hi
    rw [map_sub, sub_eq_zero]
    rcases Nat.eq_zero_or_pos i with rfl | hi1
    · rw [PowerSeries.coeff_zero_eq_constantCoeff_apply, PowerSeries.coeff_zero_eq_constantCoeff_apply,
        (powerSums_binary E).zero]
      exact (powerSums_binary _).zero
    · rw [← hb.syndrome_eq hn.le _ hi1, _syndrome_eq, hb.horner_tornBlock hr (hb.roots i hi1 hi)]
      simp only [powerSums, PowerSeries.coeff_mk, if_neg (Nat.pos_iff_ne_zero.1 hi1), hE]
      rw [Finset.sum_pair hne, one_pow, ← pow_mul, ← pow_mul, Nat.mul_comm]
  obtain ⟨R, hR⟩ : PowerSeries.X ^ (2 * b._t + 1) ∣ b.wordSums (b.tornBlock n) n - powerSums E :=
    PowerSeries.X_pow_dvd_iff.2 fun i hi => hsums i (Nat.le_of_lt_succ hi)
  have hroot : ∀ y, (locator E).eval y = 0 ↔ y = 1 ∨ α ^ n * y = 1 := by
    intro y
    rw [eval_locator_eq_zero]
    simp [hE]
  refine ⟨locator E, ⟨coeff_zero_locator E, (separable_locator E).squarefree, ?_, ?_⟩, 1, ?_, ?_, ?_, ?_⟩
  · rw [natDegree_locator h0, hcard]
    exact ht
  · refine ⟨(locator E : PowerSeries F) * R, ?_⟩
    have hkey := locator_mul_powerSums E
    linear_combination (locator E : PowerSeries F) * hR + hkey
  · exact Nat.one_lt_two_pow (Nat.lt_trans Nat.zero_lt_one hb.m_gt).ne'
  · refine ⟨(hroot _).2 (Or.inl b._galois_field.element_one), ?_⟩
    rw [b._galois_field.element_one, inv_one, hone]
    omega
  · intro j hj hroot0
    obtain rfl : j = 0 := by omega
    rw [b._galois_field.element_zero, ← coeff_zero_eq_eval_zero, coeff_zero_locator] at hroot0
    exact one_ne_zero hroot0
  · obtain ⟨j, hj, hjeq⟩ := b._galois_field.element_bij.surjOn (Set.mem_univ (α ^ n)⁻¹)
    refine ⟨j, hj, (hroot _).2 (Or.inr ?_), ?_⟩
    · rw [hjeq, mul_inv_cancel₀ (pow_ne_zero n hα0)]
    · rw [hjeq, inv_inv, hindex]

omit [DecidableEq F] in
/-- In a code of full length no root belongs to a place past the block. -/
theorem Sound.not_torn (hb : b.Sound) {σ : F[X]} (hσ : σ.coeff 0 = 1) : ¬ b.Torn b._n σ := by
  rintro ⟨-, -, -, -, j, -, hroot, hpast⟩
  have hne : b._galois_field.element j ≠ 0 := by
    intro h
    rw [h, ← coeff_zero_eq_eval_zero, hσ] at hroot
    exact one_ne_zero hroot
  rw [hb.size] at hpast
  exact absurd (b._galois_field.index_lt _ (inv_ne_zero hne)) (Nat.not_lt.2 hpast)

/-- **Shortened codes.** The decoder leaves every word on which it gives up intact exactly in a code of full
    length. -/
theorem Sound.decoder_always_intact_iff (hb : b.Sound) (ht : 2 ≤ b._t) (hr : b._gen_poly_deg ≤ n)
    (hn : n ≤ b._n) :
    (∀ block : List (BitVec 8), n ≤ 8 * block.length →
      ∀ r, b.decoder block n = .ok (-1, r) → r = block) ↔ n = b._n := by
  constructor
  · intro h
    by_contra hne
    obtain ⟨σ, hloc, htorn⟩ := hb.torn ht hr (Nat.lt_of_le_of_ne hn hne)
    have hlen : n ≤ 8 * (b.tornBlock n).length := by
      rw [tornBlock, length_foldl_toggle, List.length_replicate]
      omega
    exact (hb.decoder_intact_iff hn hlen).1 (h _ hlen) σ hloc htorn
  · rintro rfl block hlen
    exact (hb.decoder_intact_iff hn hlen).2 fun σ hσ => hb.not_torn hσ.one

end Bch

namespace BchMode

/-- **Failures of the decoder.** A word on which it gives up is left intact exactly if no locator of it is
    torn; all of them are exactly in a code of full length. -/
theorem decoder_failure_iff (mode : BchMode) [DecidableEq F] (gf : GaloisField mode.m mode.prim_poly F)
    (n : ℕ) (hn : n ≤ 2 ^ mode.m - 1) :
    (∀ block : List (BitVec 8), n ≤ 8 * block.length →
      ((∀ r, (mode.bch gf).decoder block n = .ok (-1, r) → r = block) ↔
        ∀ σ, (mode.bch gf).Locates block n σ → ¬ (mode.bch gf).Torn n σ)) ∧
    (mode.m * mode.t ≤ n →
      ((∀ block : List (BitVec 8), n ≤ 8 * block.length →
        ∀ r, (mode.bch gf).decoder block n = .ok (-1, r) → r = block) ↔ n = 2 ^ mode.m - 1)) := by
  have ht : 2 ≤ mode.t := by cases mode <;> decide
  refine ⟨fun block hlen => (mode.sound gf).decoder_intact_iff hn hlen, fun hr => ?_⟩
  exact (mode.sound gf).decoder_always_intact_iff ht hr hn

/-- In short frames the decoder can fail with bits flipped. -/
theorem decoder_failure_iff_short : ∃ gf : GaloisField DVB_BCH_GF14_T12.m DVB_BCH_GF14_T12.prim_poly
    (BinaryField.Gf DVB_BCH_GF14_T12.m), ∃ _ : DecidableEq (BinaryField.Gf DVB_BCH_GF14_T12.m),
    ¬ ∀ block : List (BitVec 8), 3240 ≤ 8 * block.length →
      ∀ r, (DVB_BCH_GF14_T12.bch gf).decoder block 3240 = .ok (-1, r) → r = block := by
  classical
  obtain ⟨gf⟩ := exists_field DVB_BCH_GF14_T12
  refine ⟨gf, inferInstance, fun h => ?_⟩
  exact absurd (((decoder_failure_iff DVB_BCH_GF14_T12 gf 3240 (by decide)).2 (by decide)).1 h) (by decide)

/-- The shortest coded blocks, and the remainder of `x ^ 3240` with its last bit flipped. -/
theorem block_torn : ¬ ∀ (ct : CodingType) (F : Type) [Field F] [DecidableEq F]
    (gf : GaloisField (_bch_mode_table ct).m (_bch_mode_table ct).prim_poly F) (block : List (BitVec 8)),
    ct.bchCoded ≤ 8 * block.length →
      ∀ r, ((_bch_mode_table ct).bch gf).decoder block ct.bchCoded = .ok (-1, r) → r = block := by
  classical
  intro h
  obtain ⟨gf⟩ := exists_field DVB_BCH_GF14_T12
  have hsound := sound DVB_BCH_GF14_T12 gf
  obtain ⟨σ, hloc, htorn⟩ := hsound.torn (show 2 ≤ 12 by decide) (show 168 ≤ 3240 by decide)
    (show 3240 < 2 ^ 14 - 1 by decide)
  have hlen : 3240 ≤ 8 * ((DVB_BCH_GF14_T12.bch gf).tornBlock 3240).length := by
    rw [Bch.tornBlock, length_foldl_toggle, List.length_replicate]
    decide
  exact (hsound.decoder_intact_iff (show 3240 ≤ 2 ^ 14 - 1 by decide) hlen).1
    (h .COD_SHORT_1_4 _ gf _ hlen) σ hloc htorn

end BchMode

end Dvb
