import Nctuns.Dvb.Proofs.BchLocatorProofs
import Nctuns.Lib.BinaryWord

/-!
# Proofs about the BCH encoder and decoder

The encoder makes words that vanish at the roots of the generator polynomial. So the syndromes of a
received word are the power sums of the places of its errors, the decoder finds their locator, and the
roots of the locator lead it back to the errors.
-/

namespace Dvb

open BitBuffer BinaryWord KeyEquation GaloisFieldPolynomial

variable {m : ℕ} {prim_poly : List ℕ} {F : Type*} [Field F]

namespace GaloisField

variable (gf : GaloisField m prim_poly F)

theorem element_zero : gf.element 0 = 0 := by
  have h := gf.element_xor 0 (Nat.two_pow_pos m) 0 (Nat.two_pow_pos m)
  rw [Nat.xor_self] at h
  exact left_eq_add.1 h

theorem charTwo (gf : GaloisField m prim_poly F) (hm : 0 < m) : CharP F 2 := by
  have h1 : 1 < 2 ^ m := Nat.one_lt_two_pow hm.ne'
  have h := gf.element_xor 1 h1 1 h1
  rw [Nat.xor_self, gf.element_zero, gf.element_one, one_add_one_eq_two] at h
  exact CharTwo.of_one_ne_zero_of_two_eq_zero one_ne_zero h.symm

theorem element_injective {i j : ℕ} (hi : i < 2 ^ m) (hj : j < 2 ^ m) (h : gf.element i = gf.element j) :
    i = j :=
  gf.element_bij.injOn hi hj h

theorem alpha_ne_zero (hm : 1 < m) : gf.element 2 ≠ 0 := by
  intro h
  have h2 : 2 < 2 ^ m := by
    calc 2 = 2 ^ 1 := rfl
      _ < 2 ^ m := Nat.pow_lt_pow_right (by decide) hm
  rw [← gf.element_zero] at h
  exact absurd (gf.element_injective h2 (Nat.two_pow_pos m) h) (by decide)

theorem distinct {n : ℕ} (hn : n ≤ 2 ^ m - 1) : Distinct (gf.element 2) n := by
  intro i hi j hj h
  rw [← gf.index_alpha_pow i (by omega), h, gf.index_alpha_pow j (by omega)]

end GaloisField

theorem _bit_eq (data : List (BitVec 8)) (i : ℕ) : _bit data i = msb data i :=
  and_mask_ne_zero _ (Nat.mod_lt i (by decide))

namespace Bch

variable (b : Bch m prim_poly F)

/-- The generator polynomial as bits. -/
def genBits : List Bool := b._gen_poly.map fun g => decide (g ≠ 0)

/-- What the parameters are good for. -/
structure Sound : Prop where
  m_gt : 1 < m
  m_le : m ≤ 31
  t_pos : 0 < b._t
  size : b._n = 2 ^ m - 1
  length : b._gen_poly.length = b._gen_poly_deg
  bits : ∀ g ∈ b._gen_poly, g < 2
  bytes : 8 ∣ b._gen_poly_deg
  roots : ∀ j, 1 ≤ j → j ≤ 2 * b._t →
    horner (b._galois_field.element 2 ^ j) b.genBits = (b._galois_field.element 2 ^ j) ^ b._gen_poly_deg

variable {b}

/-! ### The encoder -/

theorem Sound.shift_eq (hb : b.Sound) (shift_reg : List Bool) (bit : Bool) :
    b.shift shift_reg bit = if (shift_reg.headD false ^^ bit) = true then
      List.zipWith (fun s g => s ^^ g) (shift_reg.tail ++ [false]) b.genBits
    else shift_reg.tail ++ [false] := by
  have h : ∀ l : List Bool, ∀ gs : List ℕ, (∀ g ∈ gs, g < 2) →
      List.zipWith (fun (s : Bool) g => decide (s.toNat ^^^ g ≠ 0)) l gs =
        List.zipWith (fun s g => s ^^ g) l (gs.map fun g => decide (g ≠ 0)) := by
    intro l
    induction l with
    | nil => intro gs _; rfl
    | cons s l ih =>
      intro gs hgs
      cases gs with
      | nil => rfl
      | cons g gs =>
        have hg : g = 0 ∨ g = 1 := by
          have := hgs g List.mem_cons_self
          omega
        rw [List.zipWith_cons_cons, List.map_cons, List.zipWith_cons_cons,
          ih gs fun g hg => hgs g (List.mem_cons_of_mem _ hg)]
        congr 1
        rcases hg with rfl | rfl <;> cases s <;> rfl
  unfold shift genBits
  dsimp only
  rw [h _ _ hb.bits]

theorem Sound.length_shift (hb : b.Sound) {shift_reg : List Bool} (bit : Bool)
    (hlen : shift_reg.length = b._gen_poly_deg) : (b.shift shift_reg bit).length = b._gen_poly_deg := by
  have hpos : 0 < b._gen_poly_deg := Nat.mul_pos (Nat.lt_trans Nat.zero_lt_one hb.m_gt) hb.t_pos
  have hg : b.genBits.length = b._gen_poly_deg := by rw [genBits, List.length_map, hb.length]
  rw [hb.shift_eq]
  split
  · rw [List.length_zipWith, List.length_append, List.length_tail, List.length_singleton, hg, hlen]
    omega
  · rw [List.length_append, List.length_tail, List.length_singleton, hlen]
    omega

/-- **Step lemma.** A root of the generator polynomial sees one more bit. -/
theorem Sound.horner_shift [CharP F 2] (hb : b.Sound) {shift_reg : List Bool} {bit : Bool} {x : F}
    (hlen : shift_reg.length = b._gen_poly_deg) (hx : horner x b.genBits = x ^ b._gen_poly_deg) :
    horner x (b.shift shift_reg bit) =
      horner x shift_reg * x + if bit then x ^ b._gen_poly_deg else 0 := by
  have hpos : 0 < b._gen_poly_deg := Nat.mul_pos (Nat.lt_trans Nat.zero_lt_one hb.m_gt) hb.t_pos
  have hg : b.genBits.length = b._gen_poly_deg := by rw [genBits, List.length_map, hb.length]
  cases shift_reg with
  | nil => simp at hlen; omega
  | cons s reg =>
    have hreg : (reg ++ [false]).length = b.genBits.length := by
      rw [List.length_append, List.length_singleton, hg, ← hlen, List.length_cons]
    have hpow : x ^ b._gen_poly_deg = x ^ reg.length * x := by
      rw [← hlen, List.length_cons, pow_succ]
    rw [hb.shift_eq, List.headD_cons, List.tail_cons, horner_cons]
    split
    next h =>
      rw [horner_zipWith_xor hreg, horner_concat, hx, hpow]
      cases s <;> cases bit <;> simp at h ⊢
      ring
    next h =>
      rw [horner_concat, hpow]
      cases s <;> cases bit <;> simp at h ⊢
      rw [add_mul, add_assoc, add_comm (horner x reg * x), ← add_assoc, CharTwo.add_self_eq_zero, zero_add]

/-- **Run lemma.** The register holds what makes the word vanish. -/
theorem Sound.horner_run [CharP F 2] (hb : b.Sound) (bits : List Bool) {shift_reg : List Bool} {x : F}
    (hlen : shift_reg.length = b._gen_poly_deg) (hx : horner x b.genBits = x ^ b._gen_poly_deg) :
    (bits.foldl b.shift shift_reg).length = b._gen_poly_deg ∧
      horner x (bits.foldl b.shift shift_reg) =
        horner x shift_reg * x ^ bits.length + x ^ b._gen_poly_deg * horner x bits := by
  induction bits generalizing shift_reg with
  | nil => simp [hlen]
  | cons bit bits ih =>
    obtain ⟨hlen', heq⟩ := ih (hb.length_shift bit hlen)
    refine ⟨hlen', ?_⟩
    rw [List.foldl_cons, heq, hb.horner_shift hlen hx, horner_cons, List.length_cons, pow_succ]
    cases bit <;> simp <;> ring

/-- The register behind the message. -/
def register (b : Bch m prim_poly F) (block : List (BitVec 8)) (n : ℕ) : List Bool :=
  ((List.range (n - b._gen_poly_deg)).map (_bit block)).foldl b.shift
    (List.replicate b._gen_poly_deg false)

/-- A block that the encoder takes: whole bytes, as many as the code allows. -/
structure Fits (b : Bch m prim_poly F) (block : List (BitVec 8)) (n : ℕ) : Prop where
  deg_le : b._gen_poly_deg ≤ n
  le : n ≤ b._n
  bytes : 8 ∣ n
  length : n ≤ 8 * block.length

theorem sys_check_ok {n : ℕ} (h : n ≤ b._n) : b._sys_check n = .ok () :=
  if_neg (Nat.not_lt.2 h)

/-- The remainder is written bit by bit. -/
theorem foldl_remainder (reg : ℕ → Bool) {k : ℕ} (hk : 8 ∣ k) (r : ℕ) (block : List (BitVec 8)) :
    (List.range r).foldl (fun block i =>
      if reg i then block.modify (k / 8 + i / 8) (· ^^^ ((0x80 : BitVec 8) >>> (i % 8))) else block)
      block = (((List.range r).filter reg).map (k + ·)).foldl toggle block := by
  rw [List.foldl_map, List.foldl_filter]
  have h : ∀ (block : List (BitVec 8)) (i : ℕ),
      block.modify (k / 8 + i / 8) (· ^^^ ((0x80 : BitVec 8) >>> (i % 8))) = toggle block (k + i) := by
    intro block i
    unfold toggle
    rw [show (k + i) / 8 = k / 8 + i / 8 by omega, show (k + i) % 8 = i % 8 by omega]
  simp only [h]

/-- **What the encoder makes.** The message, and the register behind it. -/
theorem Sound.encoder_eq (hb : b.Sound) {block : List (BitVec 8)} {n : ℕ} (h : b.Fits block n) :
    ∃ c, b.encoder block n = .ok c ∧ c.length = block.length ∧
      (∀ i < n - b._gen_poly_deg, _bit c i = _bit block i) ∧
      (∀ i < b._gen_poly_deg, _bit c (n - b._gen_poly_deg + i) = (b.register block n).getD i false) ∧
      ∀ i ≥ n, _bit c i = _bit block i := by
  obtain ⟨hr, hn, h8, hlen⟩ := h
  have hbytes := hb.bytes
  set r := b._gen_poly_deg with hrdef
  have hk8 : 8 ∣ n - r := Nat.dvd_sub h8 hbytes
  have hclear : (n - r) / 8 + r / 8 ≤ block.length := by omega
  have hlenc := length_clear hclear
  set flips := ((List.range r).filter fun i => (b.register block n).getD i false).map (n - r + ·)
  have hflips : ∀ j ∈ flips, j / 8 < (clear block ((n - r) / 8) (r / 8)).length := by
    intro j hj
    obtain ⟨i, hi, rfl⟩ := List.mem_map.1 hj
    have hi := List.mem_range.1 (List.mem_filter.1 hi).1
    rw [hlenc]
    omega
  have hnodup : flips.Nodup :=
    (List.nodup_range.filter _).map fun i j hij => Nat.add_left_cancel hij
  have hmsb : ∀ i, msb (flips.foldl toggle (clear block ((n - r) / 8) (r / 8))) i =
      ((decide (i / 8 < (n - r) / 8 ∨ (n - r) / 8 + r / 8 ≤ i / 8) && msb block i) ^^
        decide (i ∈ flips)) := by
    intro i
    rw [msb_foldl_toggle _ hflips, msb_clear hclear, odd_of_nodup hnodup]
  refine ⟨flips.foldl toggle (clear block ((n - r) / 8) (r / 8)), ?_, ?_, ?_, ?_, ?_⟩
  · unfold encoder
    rw [sys_check_ok hn]
    exact congrArg Except.ok (foldl_remainder (fun i => (b.register block n).getD i false) hk8 r _)
  · rw [length_foldl_toggle, hlenc]
  · intro i hi
    have hmem : i ∉ flips := by
      intro hmem
      obtain ⟨i', -, rfl⟩ := List.mem_map.1 hmem
      omega
    rw [_bit_eq, _bit_eq, hmsb, decide_eq_true (Or.inl (by omega)), decide_eq_false hmem, Bool.true_and,
      Bool.xor_false]
  · intro i hi
    rw [_bit_eq, hmsb, decide_eq_false (by omega), Bool.false_and, Bool.false_xor]
    have hmem : n - r + i ∈ flips ↔ (b.register block n).getD i false = true := by
      constructor
      · intro hmem
        obtain ⟨i', hi', heq⟩ := List.mem_map.1 hmem
        obtain rfl := Nat.add_left_cancel heq
        exact (List.mem_filter.1 hi').2
      · intro hreg
        exact List.mem_map.2 ⟨i, List.mem_filter.2 ⟨List.mem_range.2 hi, hreg⟩, rfl⟩
    rw [Bool.eq_iff_iff, decide_eq_true_iff]
    exact hmem
  · intro i hi
    have hmem : i ∉ flips := by
      intro hmem
      obtain ⟨i', hi', rfl⟩ := List.mem_map.1 hmem
      have hi' := List.mem_range.1 (List.mem_filter.1 hi').1
      omega
    rw [_bit_eq, _bit_eq, hmsb, decide_eq_true (Or.inr (by omega)), decide_eq_false hmem, Bool.true_and,
      Bool.xor_false]

/-- **A codeword vanishes** at the roots of the generator polynomial. -/
theorem Sound.horner_encoder [CharP F 2] (hb : b.Sound) {block c : List (BitVec 8)} {n : ℕ}
    (h : b.Fits block n) (hc : b.encoder block n = .ok c) {x : F}
    (hx : horner x b.genBits = x ^ b._gen_poly_deg) :
    horner x ((List.range n).map (_bit c)) = 0 := by
  obtain ⟨c', hc', -, hmsg, hreg, -⟩ := hb.encoder_eq h
  obtain rfl := Except.ok.inj (hc.symm.trans hc')
  obtain ⟨hlen, hval⟩ := hb.horner_run ((List.range (n - b._gen_poly_deg)).map (_bit block))
    (List.length_replicate (n := b._gen_poly_deg) (a := false)) hx
  have hsplit : (List.range n).map (_bit c) =
      (List.range (n - b._gen_poly_deg)).map (_bit block) ++ b.register block n := by
    have hn : n - b._gen_poly_deg + b._gen_poly_deg = n := Nat.sub_add_cancel h.deg_le
    rw [← hn, List.range_add, List.map_append, List.map_map, hn]
    congr 1
    · exact List.map_congr_left fun i hi => hmsg i (List.mem_range.1 hi)
    · refine List.ext_getElem ?_ fun i hi hi' => ?_
      · rw [List.length_map, List.length_range]
        exact hlen.symm
      · have hlt : i < b._gen_poly_deg := by simpa using hi
        rw [List.getElem_map, List.getElem_range, Function.comp_apply, hreg i hlt,
          List.getD_eq_getElem _ _ hi']
  have hreglen : (b.register block n).length = b._gen_poly_deg := hlen
  have hregval : horner x (b.register block n) =
      x ^ b._gen_poly_deg * horner x ((List.range (n - b._gen_poly_deg)).map (_bit block)) := by
    rw [register, hval, horner_replicate_false, zero_mul, zero_add]
  rw [hsplit, horner_append, hreglen, hregval, mul_comm, CharTwo.add_self_eq_zero]

/-! ### The decoder -/

theorem err_bit_of_lt {n : ℕ} {root : F} (hlt : b._galois_field.index root⁻¹ < n) (hn : n ≤ 2 ^ 31) :
    b.err_bit n root = n - 1 - b._galois_field.index root⁻¹ := by
  unfold err_bit
  omega

theorem err_bit_of_ge {n : ℕ} {root : F} (hge : n ≤ b._galois_field.index root⁻¹)
    (hindex : b._galois_field.index root⁻¹ < 2 ^ 31) (hn : n ≤ 2 ^ 31) : n ≤ b.err_bit n root := by
  unfold err_bit
  omega

/-- Roots in range are all corrected. -/
theorem correct_of_lt {n : ℕ} {roots : List F} {block : List (BitVec 8)}
    (h : ∀ root ∈ roots, b.err_bit n root < n) :
    b.correct n roots block = (0, (roots.map (b.err_bit n)).foldl toggle block) := by
  induction roots generalizing block with
  | nil => rfl
  | cons root roots ih =>
    rw [correct, if_neg (Nat.not_le.2 (h root List.mem_cons_self)),
      ih fun root' h' => h root' (List.mem_cons_of_mem _ h'), List.map_cons, List.foldl_cons]

theorem _syndrome_eq (b : Bch m prim_poly F) (block : List (BitVec 8)) (n i : ℕ) :
    b._syndrome block n i =
      horner (b._galois_field.element 2 ^ i) ((List.range n).map (_bit block)) := by
  unfold _syndrome recv_poly GaloisFieldPolynomial.eval horner GaloisField.alpha
  rw [List.foldr_reverse, List.foldl_map, List.foldl_map, pow_one]
  simp only [add_comm]

/-- The root that belongs to the bit at a position. -/
theorem Sound.err_bit_place (hb : b.Sound) {n i : ℕ} {x : F} (hn : n ≤ b._n) (hi : i < n)
    (hx : b._galois_field.element 2 ^ (n - 1 - i) * x = 1) : b.err_bit n x = i := by
  have hsize := hb.size
  have hm : 2 ^ m ≤ 2 ^ 31 := Nat.pow_le_pow_right (by decide) hb.m_le
  have hinv : x⁻¹ = b._galois_field.element 2 ^ (n - 1 - i) := (eq_inv_of_mul_eq_one_left hx).symm
  have hindex : b._galois_field.index x⁻¹ = n - 1 - i := by
    rw [hinv, b._galois_field.index_alpha_pow _ (by omega)]
  rw [err_bit_of_lt (by omega) (by omega), hindex]
  omega

variable [DecidableEq F]

theorem mem_roots {poly_lambda : GaloisFieldPolynomial F} {x : F} :
    x ∈ b.roots poly_lambda ↔ poly_lambda.toPoly.eval x = 0 := by
  obtain ⟨i, hi, rfl⟩ := b._galois_field.element_bij.surjOn (Set.mem_univ x)
  unfold roots
  rw [List.mem_filter, eval_toPoly]
  constructor
  · rintro ⟨-, h⟩
    exact of_decide_eq_true h
  · intro h
    exact ⟨List.mem_map.2 ⟨i, List.mem_range.2 hi, rfl⟩, decide_eq_true h⟩

theorem nodup_roots (b : Bch m prim_poly F) (poly_lambda : GaloisFieldPolynomial F) :
    (b.roots poly_lambda).Nodup := by
  refine List.Nodup.filter _ (List.Nodup.map_on (fun i hi j hj h => ?_) List.nodup_range)
  exact b._galois_field.element_injective (List.mem_range.1 hi) (List.mem_range.1 hj) h

theorem decoder_of_err {block : List (BitVec 8)} {n : ℕ} (hn : n ≤ b._n) {i : ℕ} (hi : 1 ≤ i)
    (hit : i ≤ 2 * b._t) (hne : b._syndrome block n i ≠ 0) :
    b.decoder block n =
      if (poly_lambda (b._syndrome block n) b._t).deg < 1 ∨
          (poly_lambda (b._syndrome block n) b._t).deg > b._t then .ok (-1, block)
      else .ok (b.correct n (b.roots (poly_lambda (b._syndrome block n) b._t)) block) := by
  have herr : ((List.range' 1 (2 * b._t)).any fun i => decide (b._syndrome block n i ≠ 0)) = true := by
    rw [List.any_eq_true]
    exact ⟨i, List.mem_range'_1.2 ⟨hi, by omega⟩, decide_eq_true hne⟩
  unfold decoder
  rw [sys_check_ok hn]
  dsimp only [bind, Except.bind]
  rw [herr, if_neg (by decide)]
  split <;> rfl

theorem decoder_of_zero {block : List (BitVec 8)} {n : ℕ} (hn : n ≤ b._n)
    (h : ∀ i, 1 ≤ i → i ≤ 2 * b._t → b._syndrome block n i = 0) : b.decoder block n = .ok (0, block) := by
  have herr : ((List.range' 1 (2 * b._t)).any fun i => decide (b._syndrome block n i ≠ 0)) = false := by
    rw [List.any_eq_false]
    intro i hi
    obtain ⟨h1, h2⟩ := List.mem_range'_1.1 hi
    simp [h i h1 (by omega)]
  unfold decoder
  rw [sys_check_ok hn]
  dsimp only [bind, Except.bind]
  rw [herr, if_pos rfl]
  rfl

/-- **A few places are found.** Where the syndromes are the power sums of at most `_t` places, the decoder
    goes through the roots of their locator. -/
theorem Sound.decoder_located (hb : b.Sound) {block : List (BitVec 8)} {n : ℕ} (hn : n ≤ b._n) {E : Finset F}
    (h0 : (0 : F) ∉ E) (hcard : E.card ≤ b._t) (hne : E.Nonempty)
    (hsyn : ∀ i, 1 ≤ i → i ≤ 2 * b._t → b._syndrome block n i = PowerSeries.coeff i (powerSums E)) :
    ∃ lambda : GaloisFieldPolynomial F, lambda.toPoly = locator E ∧
      b.decoder block n = .ok (b.correct n (b.roots lambda) block) := by
  have := b._galois_field.charTwo (Nat.lt_trans Nat.zero_lt_one hb.m_gt)
  have hsyn' : ∀ i, 1 ≤ i → i ≤ 2 * b._t - 1 →
      b._syndrome block n i = PowerSeries.coeff i (powerSums E) := fun i h1 hi => hsyn i h1 (by omega)
  obtain ⟨hpoly, hsimp⟩ := toPoly_poly_lambda (powerSums_binary E) hsyn'
  rw [run_locator h0 hb.t_pos hcard] at hpoly
  refine ⟨_, hpoly, ?_⟩
  have hdeg : (poly_lambda (b._syndrome block n) b._t).deg = E.card := by
    rw [← hsimp.natDegree, hpoly, natDegree_locator h0]
  have hpos := hne.card_pos
  obtain ⟨i, h1, hi, hi0⟩ : ∃ i, 1 ≤ i ∧ i ≤ 2 * b._t ∧ b._syndrome block n i ≠ 0 := by
    by_contra hall
    push Not at hall
    refine hne.ne_empty (eq_empty_of_powerSums h0 hcard fun i hi => ?_)
    rcases Nat.eq_zero_or_pos i with rfl | hpos
    · rw [PowerSeries.coeff_zero_eq_constantCoeff_apply]
      exact (powerSums_binary E).zero
    · rw [← hsyn i hpos hi, hall i hpos hi]
  rw [decoder_of_err hn h1 hi hi0, hdeg, if_neg (by omega)]

/-- The syndromes of a codeword with errors are the power sums of the places of the errors. -/
theorem Sound.syndrome_corrupt (hb : b.Sound) {block c : List (BitVec 8)} {n : ℕ} (h : b.Fits block n)
    (hc : b.encoder block n = .ok c) {errors : List ℕ} (herr : ∀ i ∈ errors, i / 8 < c.length) {i : ℕ}
    (h1 : 1 ≤ i) (hi : i ≤ 2 * b._t) : b._syndrome (errors.foldl toggle c) n i =
      PowerSeries.coeff i (powerSums (places (b._galois_field.element 2) n (odd errors))) := by
  have := b._galois_field.charTwo (Nat.lt_trans Nat.zero_lt_one hb.m_gt)
  have hdistinct := b._galois_field.distinct (n := n) (h.le.trans_eq hb.size)
  have hadd := horner_xor (x := b._galois_field.element 2 ^ i) (_bit c) (odd errors) n
  rw [hb.horner_encoder h hc (hb.roots i h1 hi), zero_add] at hadd
  rw [_syndrome_eq, ← horner_pow_eq hdistinct _ (by omega), ← hadd]
  refine congrArg _ (List.map_congr_left fun j _ => ?_)
  rw [_bit_eq, msb_foldl_toggle _ herr, ← _bit_eq]

theorem card_places_le (α : F) (n : ℕ) (errors : List ℕ) :
    (places α n (odd errors)).card ≤ errors.length := by
  refine Finset.card_image_le.trans ((Finset.card_le_card (t := errors.toFinset) ?_).trans
    errors.toFinset_card_le)
  intro i hi
  exact List.mem_toFinset.2 (mem_of_odd (Finset.mem_filter.1 hi).2)

/-- **The roots lead to the errors.** -/
theorem Sound.odd_err_bit (hb : b.Sound) {n : ℕ} (hn : n ≤ b._n) {w : ℕ → Bool}
    (hw : ∀ i, w i = true → i < n) {lambda : GaloisFieldPolynomial F}
    (hpoly : lambda.toPoly = locator (places (b._galois_field.element 2) n w)) :
    (∀ x ∈ b.roots lambda, b.err_bit n x < n) ∧ ∀ i, odd ((b.roots lambda).map (b.err_bit n)) i = w i := by
  have hα0 := b._galois_field.alpha_ne_zero hb.m_gt
  have hroots : ∀ x, x ∈ b.roots lambda ↔
      ∃ i, i < n ∧ w i = true ∧ b._galois_field.element 2 ^ (n - 1 - i) * x = 1 := by
    intro x
    rw [mem_roots, hpoly, eval_locator_eq_zero]
    constructor
    · rintro ⟨y, hy, hyx⟩
      obtain ⟨i, hi, hwi, rfl⟩ := mem_places.1 hy
      exact ⟨i, hi, hwi, hyx⟩
    · rintro ⟨i, hi, hwi, hix⟩
      exact ⟨_, mem_places.2 ⟨i, hi, hwi, rfl⟩, hix⟩
  have hmem : ∀ i, i ∈ (b.roots lambda).map (b.err_bit n) ↔ w i = true := by
    intro i
    rw [List.mem_map]
    constructor
    · rintro ⟨x, hx, rfl⟩
      obtain ⟨j, hj, hwj, hjx⟩ := (hroots x).1 hx
      rwa [hb.err_bit_place hn hj hjx]
    · intro hwi
      have hmul := mul_inv_cancel₀ (pow_ne_zero (n - 1 - i) hα0)
      exact ⟨_, (hroots _).2 ⟨i, hw i hwi, hwi, hmul⟩, hb.err_bit_place hn (hw i hwi) hmul⟩
  have hnodup : ((b.roots lambda).map (b.err_bit n)).Nodup := by
    refine List.Nodup.map_on (fun x hx y hy hxy => ?_) (b.nodup_roots lambda)
    obtain ⟨i, hi, -, hix⟩ := (hroots x).1 hx
    obtain ⟨j, hj, -, hjy⟩ := (hroots y).1 hy
    rw [hb.err_bit_place hn hi hix, hb.err_bit_place hn hj hjy] at hxy
    subst hxy
    exact mul_left_cancel₀ (pow_ne_zero _ hα0) (hix.trans hjy.symm)
  refine ⟨fun x hx => ?_, fun i => ?_⟩
  · obtain ⟨i, hi, -, hix⟩ := (hroots x).1 hx
    rwa [hb.err_bit_place hn hi hix]
  · rw [odd_of_nodup hnodup, Bool.eq_iff_iff, decide_eq_true_iff]
    exact hmem i

/-- **Error correction.** At most `_t` errors in a codeword are undone. -/
theorem Sound.decoder_corrupt (hb : b.Sound) {block c : List (BitVec 8)} {n : ℕ} (h : b.Fits block n)
    (hc : b.encoder block n = .ok c) {errors : List ℕ} (herr : ∀ i ∈ errors, i < n)
    (hlen : errors.length ≤ b._t) : b.decoder (errors.foldl toggle c) n = .ok (0, c) := by
  obtain ⟨c', hc', hclen, -⟩ := hb.encoder_eq h
  obtain rfl := Except.ok.inj (hc.symm.trans hc')
  have hlength := h.length
  have hbytes : ∀ i < n, i / 8 < c.length := by
    intro i hi
    omega
  have hodd : ∀ i, odd errors i = true → i < n := fun i hi => herr i (mem_of_odd hi)
  have hsyn := fun i => hb.syndrome_corrupt h hc (fun i hi => hbytes i (herr i hi)) (i := i)
  have h0 := zero_notMem_places (b._galois_field.alpha_ne_zero hb.m_gt) n (odd errors)
  have hcard := (card_places_le (b._galois_field.element 2) n errors).trans hlen
  rcases (places (b._galois_field.element 2) n (odd errors)).eq_empty_or_nonempty with hempty | hne
  · have hnone : ∀ i, odd [] i = odd errors i := by
      intro i
      cases hi : odd errors i with
      | false => rfl
      | true =>
        have hmem := (mem_places (α := b._galois_field.element 2)).2 ⟨i, hodd i hi, hi, rfl⟩
        rw [hempty] at hmem
        exact absurd hmem (Finset.notMem_empty _)
    have hsame := foldl_toggle_cancel (fun i hi => hbytes i (herr i hi)) (by simp) hnone
    rw [List.foldl_nil] at hsame
    rw [decoder_of_zero h.le, hsame]
    intro i h1 hi
    rw [hsyn i h1 hi, hempty]
    simp [powerSums]
  · obtain ⟨lambda, hpoly, hdec⟩ := hb.decoder_located h.le h0 hcard hne hsyn
    obtain ⟨hrange, heq⟩ := hb.odd_err_bit h.le hodd hpoly
    rw [hdec, correct_of_lt hrange, foldl_toggle_cancel (fun i hi => hbytes i (herr i hi)) _ heq]
    intro i hi
    obtain ⟨x, hx, rfl⟩ := List.mem_map.1 hi
    exact hbytes _ (hrange x hx)

end Bch

end Dvb
