import Nctuns.Dvb.Fec
import Nctuns.Dvb.Proofs.BchTableProofs
import Nctuns.Dvb.Proofs.LdpcProofs

/-!
# Base-band frames come back from the error correction

Whatever is sent one after another, every decoder is set up before it is used and no assertion fails. A
base-band frame comes back as it was padded when the LDPC decoder leaves no more wrong bits than the BCH
code corrects.
-/

namespace Dvb

open BitBuffer

variable {block frame : List (BitVec 8)} {i j m n : ℕ}

/-! ### The scrambler -/

/-- The scrambling sequence does not depend on the frame. -/
def scrambling : ℕ → BitVec 16
  | 0 => 0x4a80
  | i + 1 => (scrambleBit ([], scrambling i) 0).2

/-- The scrambler changes the bit. -/
def scrambled (i : ℕ) : Bool :=
  decide (((scrambling i &&& 0x0002) >>> 1) ^^^ (scrambling i &&& 0x0001) ≠ 0)

/-- The loop of the scrambler toggles the places of the sequence. -/
theorem foldl_scrambleBit (frame : List (BitVec 8)) (n : ℕ) :
    (List.range n).foldl scrambleBit (frame, 0x4a80) =
      (((List.range n).filter scrambled).foldl toggle frame, scrambling n) := by
  induction n with
  | zero => rfl
  | succ n ih =>
    rw [List.range_succ, List.foldl_append, ih, List.filter_append, List.foldl_append, List.foldl_cons,
      List.foldl_nil, scrambling]
    unfold scrambleBit
    by_cases h : ((scrambling n &&& 0x0002) >>> 1) ^^^ (scrambling n &&& 0x0001) ≠ 0
    · rw [if_pos h, if_pos h, List.filter_cons_of_pos (show scrambled n = true from decide_eq_true h)]
      rfl
    · rw [if_neg h, if_neg h, List.filter_cons_of_neg (by
        rw [scrambled, decide_eq_false h]
        exact Bool.false_ne_true)]
      rfl

theorem length_bb_scrambler : (_bb_scrambler frame n).length = frame.length := by
  rw [_bb_scrambler, foldl_scrambleBit, length_foldl_toggle]

/-- A bit after scrambling. -/
theorem msb_bb_scrambler (h : n ≤ frame.length) :
    msb (_bb_scrambler frame n) i = (msb frame i ^^ (decide (i < 8 * n) && scrambled i)) := by
  rw [_bb_scrambler, foldl_scrambleBit, msb_foldl_toggle, odd_of_nodup (List.nodup_range.filter _)]
  · simp only [List.mem_filter, List.mem_range, Bool.decide_and, Bool.decide_eq_true]
  · intro j hj
    have := List.mem_range.1 (List.mem_filter.1 hj).1
    omega

/-! ### The interleaver -/

/-- The bits after one row of the interleaver. -/
theorem msb_interleaveRow (block : List (BitVec 8)) {f : List (BitVec 8)} (hj : j ≤ n) (hf : n * (i + 1) ≤ 8 * f.length) (k : ℕ) :
    let g := (List.range j).foldl (fun f j => if _bit block (m * j + i) then toggle f (n * i + j) else f) f
    g.length = f.length ∧ msb g k = (msb f k ^^
      (decide (n * i ≤ k ∧ k < n * i + j) && msb block (m * (k - n * i) + i))) := by
  induction j with
  | zero =>
    refine ⟨rfl, ?_⟩
    rw [decide_eq_false (by omega), Bool.false_and, Bool.xor_false]
    rfl
  | succ j ih =>
    obtain ⟨hlen, hbits⟩ := ih (by omega)
    rw [List.range_succ, List.foldl_append, List.foldl_cons, List.foldl_nil]
    set g := (List.range j).foldl (fun f j => if _bit block (m * j + i) then toggle f (n * i + j) else f) f
    rw [Nat.mul_succ] at hf
    have hin : (n * i + j) / 8 < g.length := by omega
    rw [_bit_eq]
    refine ⟨by split <;> simp [hlen], ?_⟩
    have hstep : msb (if msb block (m * j + i) then toggle g (n * i + j) else g) k =
        (msb g k ^^ (decide (k = n * i + j) && msb block (m * j + i))) := by
      cases msb block (m * j + i) with
      | true => rw [if_pos rfl, msb_toggle hin, Bool.and_true]
      | false => simp
    rw [hstep, hbits]
    by_cases hk : k = n * i + j
    · subst hk
      rw [decide_eq_false (by omega), decide_eq_true rfl, decide_eq_true (by omega), Bool.false_and,
        Bool.xor_false, Bool.true_and, Bool.true_and, Nat.add_sub_cancel_left]
    · rw [decide_eq_false hk, Bool.false_and, Bool.xor_false]
      congr 2
      exact decide_eq_decide.2 (by omega)

/-- The rows that are done. -/
theorem msb_interleaveRows (block : List (BitVec 8)) {r : ℕ} (hr : r ≤ m) (hbytes : 8 ∣ m * n) (k : ℕ) :
    let f := (List.range r).foldl (interleaveRow block m n) (List.replicate (m * n / 8) 0)
    f.length = m * n / 8 ∧
      msb f k = (decide (k < n * r) && msb block (m * (k % n) + k / n)) := by
  induction r generalizing k with
  | zero =>
    refine ⟨List.length_replicate, ?_⟩
    have hzero : msb (List.replicate (m * n / 8) (0 : BitVec 8)) k = false := by
      unfold msb
      rw [List.getD_eq_getElem?_getD, List.getElem?_replicate]
      split <;> simp
    rw [decide_eq_false (by omega), Bool.false_and]
    exact hzero
  | succ r ih =>
    rw [List.range_succ, List.foldl_append, List.foldl_cons, List.foldl_nil]
    set f := (List.range r).foldl (interleaveRow block m n) (List.replicate (m * n / 8) 0)
    have hlen := (ih (by omega) 0).1
    have hroom : n * (r + 1) ≤ 8 * f.length := by
      have := Nat.mul_le_mul_left n hr
      rw [hlen, Nat.mul_comm m n] at *
      omega
    obtain ⟨hlen', hbits⟩ := msb_interleaveRow block (m := m) (i := r) (Nat.le_refl n) hroom k
    refine ⟨hlen'.trans hlen, hbits.trans ?_⟩
    rw [(ih (by omega) k).2, Nat.mul_succ]
    rcases Nat.lt_or_ge k (n * r) with hlt | hge
    · rw [decide_eq_true hlt, decide_eq_false (by omega), decide_eq_true (show k < n * r + n by omega),
        Bool.false_and, Bool.xor_false]
    · rw [decide_eq_false (by omega), Bool.false_and, Bool.false_xor]
      by_cases hk : k < n * r + n
      · have hdiv : k / n = r := by
          rw [Nat.div_eq_iff (by omega)]
          rw [Nat.mul_comm] at hge hk
          omega
        have hmod : k % n = k - n * r := by
          have := Nat.div_add_mod k n
          rw [hdiv] at this
          omega
        rw [hdiv, hmod, decide_eq_true ⟨hge, hk⟩, decide_eq_true hk]
      · rw [decide_eq_false (fun h => hk h.2), decide_eq_false hk, Bool.false_and, Bool.false_and]

/-- The bits of a block with a new front. -/
theorem msb_append_drop (f block : List (BitVec 8)) (k : ℕ) :
    msb (f ++ block.drop f.length) k = if k < 8 * f.length then msb f k else msb block k := by
  unfold msb
  rw [List.getD_eq_getElem?_getD, List.getElem?_append]
  split
  next h => rw [if_pos (by omega), List.getD_eq_getElem?_getD]
  next h =>
    rw [if_neg (by omega), List.getElem?_drop, List.getD_eq_getElem?_getD,
      show f.length + (k / 8 - f.length) = k / 8 by omega]

/-- The block is written by columns and read by rows. -/
theorem msb_bit_interleaver (block : List (BitVec 8)) (hbytes : 8 ∣ m * n) (hlen : m * n ≤ 8 * block.length) (k : ℕ) :
    (_bit_interleaver block m n).length = block.length ∧
      msb (_bit_interleaver block m n) k =
        if k < m * n then msb block (m * (k % n) + k / n) else msb block k := by
  obtain ⟨hrows, hbits⟩ := msb_interleaveRows block (Nat.le_refl m) hbytes k
  unfold _bit_interleaver
  set f := (List.range m).foldl (interleaveRow block m n) (List.replicate (m * n / 8) 0)
  refine ⟨?_, ?_⟩
  · rw [List.length_append, List.length_drop, hrows]
    omega
  · rw [← hrows, msb_append_drop f block k]
    split
    next h =>
      rw [if_pos (by omega), hbits, decide_eq_true (by rw [Nat.mul_comm n m]; omega), Bool.true_and]
    next h => rw [if_neg (by omega)]

/-- **The bit interleaver is undone.** For all rows and columns that fill whole bytes of the block. -/
theorem deinterleaver_interleaver (block : List (BitVec 8)) (m n : ℕ) (hbytes : 8 ∣ m * n)
    (hlen : m * n ≤ 8 * block.length) :
    _bit_deinterleaver (_bit_interleaver block m n) m n = block := by
  have hrow := fun k => msb_bit_interleaver block hbytes hlen k
  have hcol := fun k => msb_bit_interleaver (_bit_interleaver block m n) (m := n) (n := m)
    (by rwa [Nat.mul_comm]) (by rw [Nat.mul_comm, (hrow 0).1]; exact hlen) k
  refine ext_msb ((hcol 0).1.trans (hrow 0).1) fun k _ => ?_
  rw [_bit_deinterleaver, (hcol k).2]
  split
  next hk =>
    have hm : 0 < m := Nat.pos_of_ne_zero (by rintro rfl; simp at hk)
    have hmod : k % m < m := Nat.mod_lt _ hm
    have hdiv : k / m < n := (Nat.div_lt_iff_lt_mul hm).2 hk
    have hk' : n * (k % m) + k / m < m * n := by
      have := Nat.mul_le_mul_left n (Nat.succ_le_of_lt hmod)
      rw [Nat.mul_succ, Nat.mul_comm n m] at this
      omega
    rw [(hrow _).2, if_pos hk', Nat.mul_add_mod, Nat.mod_eq_of_lt hdiv, Nat.mul_add_div (Nat.zero_lt_of_lt hdiv),
      Nat.div_eq_of_lt hdiv, Nat.add_zero, Nat.div_add_mod]
  next hk => rw [(hrow k).2, if_neg (by rwa [Nat.mul_comm])]

/-- Three rows of eight columns. -/
theorem deinterleaver_interleaver_bytes :
    _bit_deinterleaver (_bit_interleaver [0xb1, 0x02, 0xff] 3 8) 3 8 = [0xb1, 0x02, 0xff] :=
  deinterleaver_interleaver [0xb1, 0x02, 0xff] 3 8 (by decide) (by decide)

theorem bit_interleaver_zero (block : List (BitVec 8)) (n : ℕ) : _bit_interleaver block 0 n = block := by
  simp [_bit_interleaver]

/-- With no row there is nothing to do. -/
theorem bit_deinterleaver_zero (block : List (BitVec 8)) (n : ℕ) : _bit_deinterleaver block 0 n = block := by
  have hbytes : 8 ∣ n * 0 := ⟨0, rfl⟩
  have hnone := fun k => msb_bit_interleaver block hbytes (Nat.zero_le _) k
  refine ext_msb (hnone 0).1 fun k _ => ?_
  rw [_bit_deinterleaver, (hnone k).2, if_neg (by omega)]

/-! ### A received codeword -/

/-- The bits in which two blocks differ. -/
def differing (n : ℕ) (a b : List (BitVec 8)) : List ℕ := (List.range n).filter fun i => _bit a i ≠ _bit b i

/-- The bits in which a block differs from another one make it the other one. -/
theorem foldl_toggle_differing {n : ℕ} {a b : List (BitVec 8)} (hlen : b.length = a.length)
    (hn : n ≤ 8 * a.length) (hrest : ∀ i, n ≤ i → msb a i = msb b i) :
    (differing n a b).foldl toggle a = b := by
  have hin : ∀ i ∈ differing n a b, i / 8 < a.length := by
    intro i hi
    have := List.mem_range.1 (List.mem_filter.1 hi).1
    omega
  refine ext_msb ((length_foldl_toggle ..).trans hlen.symm) fun i _ => ?_
  rw [msb_foldl_toggle _ hin, differing, odd_of_nodup (List.nodup_range.filter _)]
  rcases Nat.lt_or_ge i n with hi | hi
  · rw [← _bit_eq, ← _bit_eq b]
    by_cases hdiff : _bit a i = _bit b i
    · rw [decide_eq_false (by simp [hdiff]), Bool.xor_false, hdiff]
    · rw [decide_eq_true (by simp [hi, hdiff]), Bool.xor_true]
      revert hdiff
      cases _bit a i <;> cases _bit b i <;> decide
  · rw [decide_eq_false (by simp [hi]), Bool.xor_false, hrest i hi]

/-- The bits of a block with a front taken over. -/
theorem msb_take_append_drop {a b : List (BitVec 8)} (hn : 8 ∣ n) (ha : n ≤ 8 * a.length) (i : ℕ) :
    msb (a.take (n / 8) ++ b.drop (n / 8)) i = if i < n then msb a i else msb b i := by
  have hlen : (a.take (n / 8)).length = n / 8 := by
    rw [List.length_take]
    omega
  have h := msb_append_drop (a.take (n / 8)) b i
  rw [hlen] at h
  rw [h]
  by_cases hi : i < n
  · rw [if_pos (by omega), if_pos hi, msb, msb, List.getD_eq_getElem?_getD, List.getElem?_take,
      if_pos (by omega), ← List.getD_eq_getElem?_getD]
  · rw [if_neg (by omega), if_neg hi]

namespace Bch

variable {m : ℕ} {prim_poly : List ℕ} {F : Type*} [Field F] {b : Bch m prim_poly F}

/-- The shift register reads the information bits only. -/
theorem register_congr {block block' : List (BitVec 8)} {n : ℕ}
    (h : ∀ i < n - b._gen_poly_deg, _bit block i = _bit block' i) :
    b.register block n = b.register block' n := by
  unfold register
  rw [List.map_congr_left fun i hi => h i (List.mem_range.1 hi)]

variable [DecidableEq F]

/-- The decoder returns for every block. -/
theorem decoder_returns (b : Bch m prim_poly F) (block : List (BitVec 8)) {n : ℕ} (hn : n ≤ b._n) :
    ∃ r, b.decoder block n = .ok r := by
  unfold decoder
  rw [sys_check_ok hn]
  dsimp only [bind, Except.bind]
  split
  · exact ⟨_, rfl⟩
  · split <;> exact ⟨_, rfl⟩

/-- A codeword is found again when few of its bits are wrong, whatever stands behind it. -/
theorem Sound.decoder_near (hb : b.Sound) {block c received : List (BitVec 8)} {n : ℕ}
    (h : b.Fits block n) (hc : b.encoder block n = .ok c) (hlen : received.length = block.length)
    (hwrong : (differing n c received).length ≤ b._t) :
    ∃ c', b.decoder received n = .ok (0, c') ∧ c'.length = block.length ∧ ∀ i < n, _bit c' i = _bit c i := by
  obtain ⟨hr, hn, h8, hlength⟩ := h
  set block' := block.take (n / 8) ++ received.drop (n / 8)
  have hbits' : ∀ i, msb block' i = if i < n then msb block i else msb received i :=
    msb_take_append_drop h8 hlength
  have hlen' : block'.length = block.length := by
    rw [List.length_append, List.length_take, List.length_drop]
    omega
  have h' : b.Fits block' n := ⟨hr, hn, h8, by rw [hlen']; exact hlength⟩
  obtain ⟨d, hd, -, hmsg, hreg, -⟩ := hb.encoder_eq ⟨hr, hn, h8, hlength⟩
  obtain rfl := Except.ok.inj (hc.symm.trans hd)
  obtain ⟨c', hc', hlenc, hmsg', hreg', hrest'⟩ := hb.encoder_eq h'
  have hsame : ∀ i < n, _bit c' i = _bit c i := by
    intro i hi
    have hmessage : ∀ i < n - b._gen_poly_deg, _bit block' i = _bit block i := by
      intro i hi
      rw [_bit_eq, _bit_eq, hbits', if_pos (by omega)]
    rcases Nat.lt_or_ge i (n - b._gen_poly_deg) with hlt | hge
    · rw [hmsg' i hlt, hmsg i hlt, hmessage i hlt]
    · obtain ⟨k, rfl⟩ := Nat.exists_eq_add_of_le hge
      rw [hreg' k (by omega), hreg k (by omega), register_congr hmessage]
  refine ⟨c', ?_, hlenc.trans hlen', hsame⟩
  have herrors : (differing n c received).foldl toggle c' = received := by
    have hdiff : differing n c received = differing n c' received :=
      List.filter_congr fun i hi => by rw [hsame i (List.mem_range.1 hi)]
    rw [hdiff]
    refine foldl_toggle_differing (by omega) (by omega) fun i hi => ?_
    rw [← _bit_eq, hrest' i hi, _bit_eq, hbits', if_neg (by omega)]
  have hplaces : ∀ i ∈ differing n c received, i < n := fun i hi =>
    List.mem_range.1 (List.mem_filter.1 hi).1
  have hdecode := hb.decoder_corrupt h' hc' hplaces hwrong
  rwa [herrors] at hdecode

end Bch

/-! ### Signalling -/

/-- The columns of the table and the modes fit together. -/
theorem coding_type_fits {pls : Dvb_s2_pls} {ct : CodingType} (h : pls.coding_type = .ok ct) :
    FecSystems.bch_mode pls._fec_frame_size ct.bchTErr = .ok (_bch_mode_table ct) ∧
      (_bch_mode_table ct).t = ct.bchTErr ∧
      pls._fec_frame_size.bits =
        (if ct.normal then DVB_FECFRAME_SIZE_NORMAL else DVB_FECFRAME_SIZE_SHORT) ∧
      ∀ move : List (BitVec 8) → ℕ → ℕ → List (BitVec 8), (∀ block c, move block 0 c = block) →
        ∀ block, FecSystems.interleaving pls move block = .ok block := by
  obtain ⟨modcod, size⟩ := pls
  refine ⟨?_, ?_, ?_, fun move hmove block => ?_⟩
  case refine_4 =>
    have hrows : ∀ c ∈ [3, 4, 5], move block (size.value / c) c = block := by
      intro c hc
      rw [show size.value / c = 0 by
        revert c
        cases size <;> decide]
      exact hmove block c
    unfold FecSystems.interleaving
    cases modcod <;> cases size <;>
      first | (cases h; done) | rfl | exact congrArg Except.ok (hrows _ (by decide))
  all_goals
    cases size <;> cases modcod <;> first | (cases h; done) | (obtain rfl := Except.ok.inj h; rfl)

/-- A frame has room for the bits before the encoders. -/
theorem uncoded_le_bits {pls : Dvb_s2_pls} {ct : CodingType} (h : pls.coding_type = .ok ct) :
    ct.bchUncoded / 8 ≤ pls._fec_frame_size.bits / 8 := by
  obtain ⟨hk, -, -⟩ := BchMode.coded_fits ct
  obtain ⟨l, -, hcode, hcoded, hn⟩ := Ldpc.init_code ct
  obtain ⟨-, -, hbits, -⟩ := coding_type_fits h
  have hsize := hcode.length
  rw [hbits, ← hn]
  omega

namespace FecSystems

variable {F : BchMode → Type} [∀ mode, Field (F mode)]
  {gf : (mode : BchMode) → GaloisField mode.m mode.prim_poly (F mode)} {s : FecSystems F}
  {pls : Dvb_s2_pls} {ct : CodingType}

/-! ### Encoding -/

/-- What is set up is the code of its mode and type. -/
structure Sound (gf : (mode : BchMode) → GaloisField mode.m mode.prim_poly (F mode)) (s : FecSystems F) :
    Prop where
  bch : ∀ mode b, s._bch mode = some b → b = mode.bch (gf mode)
  ldpc : ∀ ct l, s._ldpc ct = some l → Ldpc.init ct = .ok l

theorem sound_empty : (empty : FecSystems F).Sound gf := ⟨fun _ _ h => (by cases h), fun _ _ h => (by cases h)⟩

/-- The coded block fits its BCH code. -/
theorem fits_coded (gf : (mode : BchMode) → GaloisField mode.m mode.prim_poly (F mode)) (ct : CodingType)
    (block : List (BitVec 8)) (hlen : ct.bchCoded ≤ 8 * block.length) :
    ((_bch_mode_table ct).bch (gf _)).Fits block ct.bchCoded := by
  obtain ⟨hk, hn, h8⟩ := BchMode.coded_fits ct
  refine ⟨?_, hn, h8, hlen⟩
  show (_bch_mode_table ct).m * (_bch_mode_table ct).t ≤ ct.bchCoded
  omega

/-- The systems after `_bch_encoder` with a mode. -/
def setBch (gf : (mode : BchMode) → GaloisField mode.m mode.prim_poly (F mode)) (s : FecSystems F)
    (mode : BchMode) : FecSystems F :=
  { s with _bch := Function.update s._bch mode (some (mode.bch (gf mode))) }

/-- The systems after `_ldpc_encoder` with a code. -/
def setLdpc (s : FecSystems F) (ct : CodingType) (l : Ldpc) : FecSystems F :=
  { s with _ldpc := Function.update s._ldpc ct (some l) }

/-- Storing the BCH code of a mode keeps the systems sound. -/
theorem Sound.setBch (hs : s.Sound gf) (mode : BchMode) : (s.setBch gf mode).Sound gf := by
  refine ⟨fun mode' b hb => ?_, hs.ldpc⟩
  replace hb : Function.update s._bch mode (some (mode.bch (gf mode))) mode' = some b := hb
  by_cases hm : mode' = mode
  · subst hm
    rw [Function.update_self] at hb
    exact (Option.some.inj hb).symm
  · rw [Function.update_of_ne hm] at hb
    exact hs.bch mode' b hb

/-- Storing an LDPC code keeps the systems sound. -/
theorem Sound.setLdpc (hs : s.Sound gf) {l : Ldpc} (hinit : Ldpc.init ct = .ok l) :
    (s.setLdpc ct l).Sound gf := by
  refine ⟨hs.bch, fun ct' l' hl => ?_⟩
  replace hl : Function.update s._ldpc ct (some l) ct' = some l' := hl
  by_cases hc : ct' = ct
  · subst hc
    rw [Function.update_self] at hl
    exact Option.some.inj hl ▸ hinit
  · rw [Function.update_of_ne hc] at hl
    exact hs.ldpc ct' l' hl

/-- The BCH encoder in a sound state. -/
theorem Sound.bch_encoder (hs : s.Sound gf) {size : FecFrameSize} {mode : BchMode} {c : List (BitVec 8)}
    (hmode : bch_mode size ct.bchTErr = .ok mode)
    (hc : (mode.bch (gf mode)).encoder frame ct.bchCoded = .ok c) :
    s._bch_encoder gf size ct frame = .ok (s.setBch gf mode, c) := by
  have hbch : (s._bch mode).getD (mode.bch (gf mode)) = mode.bch (gf mode) := by
    cases h : s._bch mode with
    | none => rfl
    | some b => exact hs.bch _ b h
  unfold _bch_encoder
  rw [hmode]
  simp only [bind, Except.bind, hbch, hc]
  rfl

/-- The LDPC encoder in a sound state. -/
theorem Sound.ldpc_encoder (hs : s.Sound gf) {size : FecFrameSize} {l : Ldpc} {sent : List (BitVec 8)}
    (hinit : Ldpc.init ct = .ok l) (hsent : l.encoder frame size.bits = .ok sent) :
    s._ldpc_encoder size ct frame = .ok (s.setLdpc ct l, sent) := by
  unfold _ldpc_encoder
  cases h : s._ldpc ct with
  | none =>
    simp only [bind, Except.bind, hinit, Except.mapError, hsent]
    rfl
  | some l' =>
    obtain rfl := Except.ok.inj (hinit.symm.trans (hs.ldpc ct l' h))
    simp only [bind, Except.bind, Except.mapError, hsent]
    rfl

/-- The systems that a frame needs are set up, and the frame goes through both encoders. -/
theorem Sound.fec_encoding (hs : s.Sound gf) (hct : pls.coding_type = .ok ct)
    (hlen : frame.length = pls._fec_frame_size.bits / 8) :
    ∃ s' c sent l, s._fec_encoding gf pls ct frame = .ok (s', sent) ∧ s'.Sound gf ∧
      s'._bch (_bch_mode_table ct) = some ((_bch_mode_table ct).bch (gf _)) ∧ s'._ldpc ct = some l ∧
      Ldpc.init ct = .ok l ∧
      ((_bch_mode_table ct).bch (gf _)).encoder frame ct.bchCoded = .ok c ∧
      l.encoder c pls._fec_frame_size.bits = .ok sent := by
  obtain ⟨hmode, -, hbits, hmove⟩ := coding_type_fits hct
  obtain ⟨l, hinit, hcode, hk, hn⟩ := Ldpc.init_code ct
  rw [← hbits] at hn
  have hsize := hcode.length
  have h8 := hcode.bytes
  have hfits := fits_coded gf ct frame (by omega)
  obtain ⟨c, hc, hclen, -⟩ := (BchMode.sound (_bch_mode_table ct) (gf _)).encoder_eq hfits
  have hroom : l._n / 8 ≤ c.length := by omega
  obtain ⟨sent, hsent, -⟩ := hcode.encoder_eq hroom
  rw [hn] at hsent
  have hs1 := hs.setBch (_bch_mode_table ct)
  refine ⟨(s.setBch gf (_bch_mode_table ct)).setLdpc ct l, c, sent, l, ?_, hs1.setLdpc hinit,
    Function.update_self .., Function.update_self .., hinit, hc, hsent⟩
  unfold _fec_encoding
  rw [hs.bch_encoder hmode hc]
  simp only [bind, Except.bind, hs1.ldpc_encoder hinit hsent, hmove _ bit_interleaver_zero]
  rfl

/-! ### A frame on its way -/

variable [∀ mode, DecidableEq (F mode)]

/-- A frame as `_merger_slicer` makes it. -/
structure Transmission.Fits (tx : Transmission) (ct : CodingType) : Prop where
  coding_type : tx.pls.coding_type = .ok ct
  length : tx.base_band_frame.length = tx.pls._fec_frame_size.bits / 8
  content : tx.content_len ≤ ct.bchUncoded / 8

/-- The content with the padding. -/
def Transmission.padded (tx : Transmission) (ct : CodingType) : List (BitVec 8) :=
  tx.base_band_frame.take tx.content_len ++ List.replicate (ct.bchUncoded / 8 - tx.content_len) 0

/-- What is received of a frame: without errors the LDPC decoder leaves it as it was sent, and up to as many
    wrong bits as the BCH code corrects do not reach the receiver. -/
structure Recovers (on : Bool) (tx : Transmission) (ct : CodingType) (r : Reception) : Prop where
  clean : on = false ∨ tx.flips = [] → r.ldpc = r.sent
  corrects : (differing ct.bchCoded r.sent r.ldpc).length ≤ ct.bchTErr →
    r.frame.take (ct.bchUncoded / 8) = tx.padded ct

/-- Blocks with the same bits are the same. -/
theorem take_eq_of_msb {a b : List (BitVec 8)} (n : ℕ) (ha : n ≤ a.length) (hb : n ≤ b.length)
    (h : ∀ i < 8 * n, msb a i = msb b i) : a.take n = b.take n := by
  have hla : (a.take n).length = n := by rw [List.length_take, Nat.min_eq_left ha]
  have hlb : (b.take n).length = n := by rw [List.length_take, Nat.min_eq_left hb]
  refine ext_msb (hla.trans hlb.symm) fun i hi => ?_
  rw [hla] at hi
  have hia := msb_append_drop (a.take n) a i
  have hib := msb_append_drop (b.take n) b i
  rw [hla, if_pos hi, List.take_append_drop] at hia
  rw [hlb, if_pos hi, List.take_append_drop] at hib
  rw [← hia, ← hib, h i hi]

/-- What agrees with a scrambled frame is descrambled to the frame. -/
theorem take_bb_scrambler {n : ℕ} {a b : List (BitVec 8)} (ha : n ≤ a.length) (hb : n ≤ b.length)
    (h : ∀ i < 8 * n, msb a i = msb (_bb_scrambler b n) i) : (_bb_scrambler a n).take n = b.take n := by
  refine take_eq_of_msb n (by rwa [length_bb_scrambler]) hb fun i hi => ?_
  rw [msb_bb_scrambler ha, h i hi, msb_bb_scrambler hb, Bool.xor_assoc, Bool.xor_self, Bool.xor_false]

/-- The padded block is the content with zeros behind it. -/
theorem msb_padder {ct : CodingType} {tx : Transmission} (h : tx.Fits ct)
    (hn : ct.bchUncoded / 8 ≤ tx.base_band_frame.length) :
    (_padder tx.base_band_frame tx.content_len (ct.bchUncoded / 8)).length = tx.base_band_frame.length ∧
      (_padder tx.base_band_frame tx.content_len (ct.bchUncoded / 8)).take (ct.bchUncoded / 8) =
        tx.padded ct := by
  have hc := h.content
  have hroom : tx.content_len + (ct.bchUncoded / 8 - tx.content_len) ≤ tx.base_band_frame.length := by omega
  refine ⟨length_clear hroom, ?_⟩
  unfold _padder clear Transmission.padded
  refine List.take_left' ?_
  rw [List.length_append, List.length_take, List.length_replicate]
  omega

/-- What the channel and the iterations of the LDPC decoder make of a frame has its length. -/
theorem ldpc_decoder_ok {l : Ldpc} (iterations : List (BitVec 8) → Bool × (ℕ → Bool))
    (hlen : l._n / 8 ≤ block.length) : ∃ e received, l.decoder iterations block l._n = .ok (e, received) ∧
      received.length = block.length ∧ (l.parity_check block l._n = .ok 0 → received = block) := by
  obtain ⟨errors, herrors⟩ : ∃ errors, l.parity_check block l._n = .ok errors := by
    rw [Ldpc.parity_check, Ldpc.Code.sys_check_self]
    exact ⟨_, rfl⟩
  unfold Ldpc.decoder
  rw [Ldpc.Code.sys_check_self, herrors]
  dsimp only [bind, Except.bind]
  by_cases hzero : errors = 0
  · rw [if_pos hzero]
    exact ⟨_, _, rfl, rfl, fun _ => rfl⟩
  · rw [if_neg hzero]
    have hwrite : ∀ (channel_msg : ℕ → Bool) (is : List ℕ) (b : List (BitVec 8)),
        (is.foldl (fun block i => if channel_msg i then toggle block i else block) b).length = b.length := by
      intro channel_msg is
      induction is with
      | nil => intro b; rfl
      | cons i is ih =>
        intro b
        rw [List.foldl_cons, ih]
        split
        · exact length_toggle b i
        · rfl
    refine ⟨_, _, rfl, ?_, fun h => absurd (Except.ok.inj h) hzero⟩
    rw [hwrite, length_clear (by omega)]

/-- A frame that both encoders made goes through the decoders. -/
theorem receive_ok {tx : Transmission} {l : Ldpc} {c sent : List (BitVec 8)}
    (hct : tx.pls.coding_type = .ok ct)
    (hbch : s._bch (_bch_mode_table ct) = some ((_bch_mode_table ct).bch (gf _)))
    (hldpc : s._ldpc ct = some l) (hinit : Ldpc.init ct = .ok l)
    (hc : ((_bch_mode_table ct).bch (gf _)).encoder frame ct.bchCoded = .ok c)
    (hsent : l.encoder c tx.pls._fec_frame_size.bits = .ok sent)
    (hlen : frame.length = tx.pls._fec_frame_size.bits / 8) :
    ∃ ldpc block, s.receive true tx sent = .ok ⟨sent, ldpc, _bb_scrambler block (ct.bchUncoded / 8)⟩ ∧
      (tx.flips = [] → ldpc = sent) ∧
      ((differing ct.bchCoded sent ldpc).length ≤ ct.bchTErr →
        block.length = frame.length ∧ ∀ i < 8 * (ct.bchUncoded / 8), msb block i = msb frame i) := by
  obtain ⟨-, ht, hbits, hmove⟩ := coding_type_fits hct
  obtain ⟨hk, hle, h8⟩ := BchMode.coded_fits ct
  obtain ⟨l', hinit', hcode, hlk, hn⟩ := Ldpc.init_code ct
  obtain rfl := Except.ok.inj (hinit.symm.trans hinit')
  rw [← hbits] at hn
  have hsize := hcode.length
  have h8' := hcode.bytes
  have hfits := fits_coded gf ct frame (by omega)
  have hb := BchMode.sound (_bch_mode_table ct) (gf _)
  obtain ⟨d, hd, hclen, hmsg, -, -⟩ := hb.encoder_eq hfits
  obtain rfl := Except.ok.inj (hc.symm.trans hd)
  have hroomc : l._n / 8 ≤ c.length := by omega
  obtain ⟨w, hw, hsentlen, hkeep, -, hpass⟩ := hcode.encoder_word hroomc
  rw [hn] at hw
  obtain rfl := Except.ok.inj (hsent.symm.trans hw)
  have hroom : l._n / 8 ≤ (tx.flips.foldl toggle sent).length := by
    rw [length_foldl_toggle]
    omega
  obtain ⟨e, ldpc, hdec, hldpclen, hclean⟩ := ldpc_decoder_ok tx.iterations hroom
  rw [length_foldl_toggle] at hldpclen
  obtain ⟨⟨e', block⟩, hblock⟩ := Bch.decoder_returns ((_bch_mode_table ct).bch (gf _)) ldpc hle
  refine ⟨ldpc, block, ?_, fun hflips => ?_, fun hwrong => ?_⟩
  · have hdecode : s._fec_decoding tx.iterations tx.pls ct (tx.flips.foldl toggle sent) = .ok (ldpc, block) := by
      unfold _fec_decoding
      simp only [bind, Except.bind, hmove _ bit_deinterleaver_zero, _ldpc_decoder, hldpc, ← hn, hdec,
        Except.mapError, _bch_decoder, hbch, hblock]
      rfl
    unfold receive
    simp only [bind, Except.bind, hct, reduceIte, hdecode]
    rfl
  · rw [hflips] at hclean
    exact hclean hpass
  · have hcopy : ∀ i < ct.bchCoded, _bit sent i = _bit c i := fun i hi => hkeep i (.inl (by omega))
    have hdiff : differing ct.bchCoded c ldpc = differing ct.bchCoded sent ldpc := by
      refine List.filter_congr fun i hi => ?_
      rw [hcopy i (List.mem_range.1 hi)]
    obtain ⟨c', hc', hlen', hsame⟩ := hb.decoder_near hfits hc
      (hldpclen.trans (hsentlen.trans hclen)) (by
        rw [hdiff]
        exact hwrong.trans ht.symm.le)
    obtain ⟨-, rfl⟩ := Prod.mk.inj (Except.ok.inj (hc'.symm.trans hblock))
    refine ⟨hlen', fun i hi => ?_⟩
    have hmessage : ct.bchCoded - ((_bch_mode_table ct).bch (gf _))._gen_poly_deg = ct.bchUncoded := by
      show ct.bchCoded - (_bch_mode_table ct).m * (_bch_mode_table ct).t = _
      omega
    rw [← _bit_eq, ← _bit_eq, hsame i (by omega), hmsg i (by rw [hmessage]; omega)]

/-- **One frame.** -/
theorem Sound.transmit (hs : s.Sound gf) (on : Bool) {tx : Transmission} (h : tx.Fits ct) :
    ∃ s' r, s.transmit gf on tx = .ok (s', r) ∧ s'.Sound gf ∧ Recovers on tx ct r := by
  have huncoded : ct.bchUncoded / 8 ≤ tx.base_band_frame.length :=
    h.length ▸ uncoded_le_bits h.coding_type
  obtain ⟨hpadlen, hpadded⟩ := msb_padder h huncoded
  set frame := _padder tx.base_band_frame tx.content_len (ct.bchUncoded / 8)
  have hsendlen : (_bb_scrambler frame (ct.bchUncoded / 8)).length = frame.length := length_bb_scrambler
  have hback : ∀ b : List (BitVec 8), b.length = frame.length →
      (∀ i < 8 * (ct.bchUncoded / 8), msb b i = msb (_bb_scrambler frame (ct.bchUncoded / 8)) i) →
      (_bb_scrambler b (ct.bchUncoded / 8)).take (ct.bchUncoded / 8) = tx.padded ct := by
    intro b hb hsame
    rw [← hpadded]
    exact take_bb_scrambler (by omega) (by omega) hsame
  cases on with
  | false =>
    refine ⟨s, ⟨_bb_scrambler frame (ct.bchUncoded / 8), _bb_scrambler frame (ct.bchUncoded / 8),
      _bb_scrambler (_bb_scrambler frame (ct.bchUncoded / 8)) (ct.bchUncoded / 8)⟩, ?_, hs,
      ⟨fun _ => rfl, fun _ => hback _ hsendlen fun _ _ => rfl⟩⟩
    unfold FecSystems.transmit send receive
    rw [h.coding_type]
    rfl
  | true =>
    have hscrlen : (_bb_scrambler frame (ct.bchUncoded / 8)).length = tx.pls._fec_frame_size.bits / 8 :=
      hsendlen.trans (hpadlen.trans h.length)
    obtain ⟨s', c, sent, l', hencode, hs', hbch, hldpc, hinit, hc, hsent⟩ :=
      hs.fec_encoding h.coding_type hscrlen
    obtain ⟨ldpc, block, hreceive, hclean, hcorrect⟩ :=
      receive_ok h.coding_type hbch hldpc hinit hc hsent hscrlen
    refine ⟨s', ⟨sent, ldpc, _bb_scrambler block (ct.bchUncoded / 8)⟩, ?_, hs', ⟨?_, fun hwrong => ?_⟩⟩
    · have hsend : s.send gf true tx = .ok (s', sent) := by
        unfold send
        rw [h.coding_type]
        exact hencode
      unfold FecSystems.transmit
      simp only [bind, Except.bind, hsend, hreceive]
      rfl
    · rintro (hoff | hflips)
      · cases hoff
      · exact hclean hflips
    · obtain ⟨hblen, hsame⟩ := hcorrect hwrong
      exact hback block (hblen.trans hsendlen) hsame

/-- **Every run.** From nothing set up, frames of all codes are sent one after another: none of the
    assertions of the encoders fails, no decoder is missing, and each frame is recovered. -/
theorem transmitAll_recovers (gf : (mode : BchMode) → GaloisField mode.m mode.prim_poly (F mode))
    (on : Bool) (txs : List Transmission) (h : ∀ tx ∈ txs, ∃ ct, tx.Fits ct) :
    ∃ rs, transmitAll gf on empty txs = .ok rs ∧
      List.Forall₂ (fun tx r => ∀ ct, tx.pls.coding_type = .ok ct → Recovers on tx ct r) txs rs := by
  have hrun : ∀ s : FecSystems F, s.Sound gf → ∃ rs, transmitAll gf on s txs = .ok rs ∧
      List.Forall₂ (fun tx r => ∀ ct, tx.pls.coding_type = .ok ct → Recovers on tx ct r) txs rs := by
    induction txs with
    | nil => exact fun s _ => ⟨[], rfl, .nil⟩
    | cons tx txs ih =>
      intro s hs
      obtain ⟨ct, hfits⟩ := h tx List.mem_cons_self
      obtain ⟨s', r, hr, hs', hrec⟩ := hs.transmit on hfits
      obtain ⟨rs, hrs, hall⟩ := ih (fun tx htx => h tx (List.mem_cons_of_mem _ htx)) s' hs'
      refine ⟨r :: rs, ?_, .cons (fun ct' hct' => ?_) hall⟩
      · unfold transmitAll
        simp only [bind, Except.bind, hr, hrs]
        rfl
      · exact Except.ok.inj (hfits.coding_type.symm.trans hct') ▸ hrec
  exact hrun empty sound_empty

/-- A normal frame and a short one, the second of them with two bits flipped that the iterations leave as
    they are. -/
def twoFrames : List Transmission := [
  { pls := ⟨.MODCOD_QPSK_1_4, .FECFRAME_NORMAL⟩
    base_band_frame := List.replicate 8100 0x47
    content_len := 198
    flips := []
    iterations := fun _ => (true, fun _ => false) },
  { pls := ⟨.MODCOD_32APSK_8_9, .FECFRAME_SHORT⟩
    base_band_frame := List.replicate 2025 0x47
    content_len := 1779
    flips := [3, 16000]
    iterations := fun block => (true, msb block) }]

/-- A clean frame and one with two wrong bits that LDPC decoding leaves in. -/
theorem transmitAll_recovers_twoFrames :
    ∃ (gf : (mode : BchMode) → GaloisField mode.m mode.prim_poly (BinaryField.Gf mode.m))
      (_ : (mode : BchMode) → DecidableEq (BinaryField.Gf mode.m)) (rs : List Reception),
      transmitAll gf true empty twoFrames = .ok rs ∧
        List.Forall₂ (fun tx r => ∀ ct, tx.pls.coding_type = .ok ct → Recovers true tx ct r) twoFrames rs := by
  classical
  refine ⟨fun mode => (BchMode.exists_field mode).some, fun mode => inferInstance, ?_⟩
  refine transmitAll_recovers _ true twoFrames fun tx htx => ?_
  rcases List.mem_cons.1 htx with rfl | htx
  · exact ⟨.COD_NORMAL_1_4, rfl, List.length_replicate, by decide⟩
  · obtain rfl := List.mem_singleton.1 htx
    exact ⟨.COD_SHORT_8_9, rfl, List.length_replicate, by decide⟩

end FecSystems

end Dvb
