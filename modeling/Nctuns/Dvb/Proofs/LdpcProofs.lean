import Nctuns.Dvb.Proofs.BchProofs
import Nctuns.Dvb.Proofs.LdpcGraphProofs

/-!
# The LDPC codes are what the encoder makes

The encoder adds up the information bits at the c-nodes and chains the parity bits. A block passes the
parity check exactly when its parity bits are those, and the decoder leaves such a block as it is.
-/

namespace Dvb

open BitBuffer

namespace Ldpc

variable {l : Ldpc} {block b : List (BitVec 8)}

/-- The c-nodes that some bits of a block are added to. -/
def reached (l : Ldpc) (block : List (BitVec 8)) (vs : List ℕ) : List ℕ :=
  vs.flatMap fun v => if msb block v then l.cnodes v else []

theorem reached_cons (v : ℕ) (vs : List ℕ) : l.reached block (v :: vs) =
    (if msb block v then l.cnodes v else []) ++ l.reached block vs := List.flatMap_cons

theorem reached_append (vs vs' : List ℕ) :
    l.reached block (vs ++ vs') = l.reached block vs ++ l.reached block vs' := List.flatMap_append

theorem reached_congr {vs : List ℕ} (h : ∀ v ∈ vs, msb block v = msb b v) :
    l.reached block vs = l.reached b vs := by
  induction vs with
  | nil => rfl
  | cons v vs ih =>
    rw [reached_cons, reached_cons, h v List.mem_cons_self,
      ih fun w hw => h w (List.mem_cons_of_mem _ hw)]

/-- The sum of the information bits at a c-node. -/
def sum (l : Ldpc) (block : List (BitVec 8)) (c : ℕ) : Bool := odd (l.reached block (List.range l._k)) c

/-- The sums up to a c-node. -/
def running (a : ℕ → Bool) : ℕ → Bool
  | 0 => a 0
  | j + 1 => a (j + 1) ^^ running a j

/-! ### The encoder -/

namespace Code

theorem xor_bit_eq (h : l.Code) (b : List (BitVec 8)) (i : ℕ) : l._xor_bit b i = toggle b (l._k + i) := by
  have h8 := h.bytes.1
  unfold _xor_bit toggle
  rw [show (l._k + i) / 8 = l._k / 8 + i / 8 by omega, show (l._k + i) % 8 = i % 8 by omega]

theorem parity_eq (h : l.Code) (b : List (BitVec 8)) (i : ℕ) : l.parity b i = msb b (l._k + i) := by
  have h8 := h.bytes.1
  rw [Ldpc.parity, _bit_eq, msb, msb, List.getD_eq_getElem?_getD, List.getElem?_drop, List.getD_eq_getElem?_getD,
    show (l._k + i) / 8 = l._k / 8 + i / 8 by omega, show (l._k + i) % 8 = i % 8 by omega]

theorem mem_reached (h : l.Code) {vs : List ℕ} (hvs : ∀ v ∈ vs, v < l._k) :
    ∀ c ∈ l.reached block vs, c < l._p := by
  intro c hc
  obtain ⟨v, hv, hc⟩ := List.mem_flatMap.1 hc
  split at hc
  · exact h.information v (hvs v hv) c hc
  · cases hc

/-- The information bits that are set are added to their c-nodes. -/
theorem foldl_accumulate (h : l.Code) (vs : List ℕ) (hvs : ∀ v ∈ vs, v < l._k)
    (hlen : l._n / 8 ≤ b.length) :
    vs.foldl l.accumulate b = ((l.reached b vs).map (l._k + ·)).foldl toggle b := by
  induction vs generalizing b with
  | nil => rfl
  | cons v vs ih =>
    have hrest : ∀ w ∈ vs, w < l._k := fun w hw => hvs w (List.mem_cons_of_mem _ hw)
    have hv := hvs v List.mem_cons_self
    have hstep : l.accumulate b v = ((if msb b v then l.cnodes v else []).map (l._k + ·)).foldl toggle b := by
      unfold accumulate
      rw [_bit_eq]
      split
      · rw [List.foldl_map]
        congr 1
        funext b i
        exact h.xor_bit_eq b i
      · rfl
    have hin : ∀ j ∈ (if msb b v then l.cnodes v else []).map (l._k + ·), l._k ≤ j ∧ j / 8 < b.length := by
      intro j hj
      obtain ⟨c, hc, rfl⟩ := List.mem_map.1 hj
      have hc : c < l._p := by
        split at hc
        · exact h.information v hv c hc
        · cases hc
      obtain ⟨h8, h8'⟩ := h.bytes
      have := h.length
      exact ⟨by omega, by omega⟩
    have hsame : ∀ w ∈ vs, msb (l.accumulate b v) w = msb b w := by
      intro w hw
      have hw := hrest w hw
      rw [hstep, msb_foldl_toggle _ fun j hj => (hin j hj).2]
      have hnot : ¬ odd ((if msb b v then l.cnodes v else []).map (l._k + ·)) w = true := by
        intro hodd
        have := (hin w (mem_of_odd hodd)).1
        omega
      rw [Bool.eq_false_iff.2 hnot, Bool.xor_false]
    have hlen' : (l.accumulate b v).length = b.length := by rw [hstep, length_foldl_toggle]
    rw [List.foldl_cons, ih hrest (hlen'.symm ▸ hlen), reached_congr hsame, reached_cons, List.map_append,
      List.foldl_append, ← hstep]

/-- The block behind the first loop: the sums stand in the parity bits. -/
theorem msb_accumulate (h : l.Code) (hlen : l._n / 8 ≤ block.length) :
    ((List.range l._k).foldl l.accumulate (clear block (l._k / 8) (l._p / 8))).length = block.length ∧
      ∀ i, msb ((List.range l._k).foldl l.accumulate (clear block (l._k / 8) (l._p / 8))) i =
        if l._k ≤ i ∧ i < l._n then l.sum block (i - l._k) else msb block i := by
  obtain ⟨hk8, hp8⟩ := h.bytes
  have hn := h.length
  have hroom : l._k / 8 + l._p / 8 ≤ block.length := by omega
  have hclear := length_clear hroom
  have hrange : ∀ v ∈ List.range l._k, v < l._k := fun v hv => List.mem_range.1 hv
  have hsame : ∀ v ∈ List.range l._k, msb (clear block (l._k / 8) (l._p / 8)) v = msb block v := by
    intro v hv
    have hv := hrange v hv
    rw [msb_clear hroom, decide_eq_true (by omega), Bool.true_and]
  rw [h.foldl_accumulate _ hrange (hclear.symm ▸ hlen), reached_congr hsame]
  have hplaces : ∀ j ∈ (l.reached block (List.range l._k)).map (l._k + ·), l._k ≤ j ∧ j < l._n := by
    intro j hj
    obtain ⟨c, hc, rfl⟩ := List.mem_map.1 hj
    have := h.mem_reached hrange c hc
    omega
  refine ⟨by rw [length_foldl_toggle, hclear], fun i => ?_⟩
  rw [msb_foldl_toggle _ fun j hj => by have := (hplaces j hj).2; omega, msb_clear hroom]
  split
  next hi =>
    obtain ⟨c, rfl⟩ := Nat.exists_eq_add_of_le hi.1
    rw [decide_eq_false (by omega), Bool.false_and, Bool.false_xor, odd_map_add, Nat.add_sub_cancel_left]
    rfl
  next hi =>
    have hnot : odd ((l.reached block (List.range l._k)).map (l._k + ·)) i ≠ true :=
      fun hodd => hi (hplaces i (mem_of_odd hodd))
    rw [Bool.eq_false_iff.2 hnot, Bool.xor_false, decide_eq_true (by omega), Bool.true_and]

/-- The chain of the parity bits. -/
theorem foldl_chain (h : l.Code) (hlen : l._n / 8 ≤ b.length) {m : ℕ} (hm : m < l._p) :
    let r := (List.range' 1 m).foldl l.chain (b, l.parity b 0)
    r.1.length = b.length ∧ r.2 = running (fun j => msb b (l._k + j)) m ∧
      ∀ i, msb r.1 i = if l._k ≤ i ∧ i ≤ l._k + m then running (fun j => msb b (l._k + j)) (i - l._k)
        else msb b i := by
  induction m with
  | zero =>
    refine ⟨rfl, h.parity_eq b 0, fun i => ?_⟩
    show msb b i = _
    split
    next hi =>
      obtain rfl : i = l._k := by omega
      rw [Nat.sub_self]
      rfl
    next => rfl
  | succ m ih =>
    obtain ⟨hlength, hlast, hbits⟩ := ih (by omega)
    rw [List.range'_1_concat, List.foldl_append]
    set r := (List.range' 1 m).foldl l.chain (b, l.parity b 0)
    have hin : (l._k + (1 + m)) / 8 < r.1.length := by
      obtain ⟨h8, h8'⟩ := h.bytes
      have := h.length
      omega
    have hbit : ∀ i, msb (l.chain r (1 + m)).1 i = (msb r.1 i ^^ (r.2 && decide (i = l._k + (1 + m)))) := by
      intro i
      unfold chain
      cases hr : r.2 with
      | false => simp
      | true =>
        show msb (if true = true then l._xor_bit r.1 (1 + m) else r.1) i = _
        rw [if_pos rfl, h.xor_bit_eq, msb_toggle hin, Bool.true_and]
    have hnew : msb (l.chain r (1 + m)).1 (l._k + (1 + m)) =
        running (fun j => msb b (l._k + j)) (m + 1) := by
      rw [hbit, hbits, if_neg (by omega), decide_eq_true rfl, Bool.and_true, hlast, Nat.add_comm 1 m]
      rfl
    refine ⟨?_, ?_, fun i => ?_⟩
    · show (if r.2 then l._xor_bit r.1 (1 + m) else r.1).length = _
      split
      · rw [h.xor_bit_eq, length_toggle, hlength]
      · exact hlength
    · show l.parity (l.chain r (1 + m)).1 (1 + m) = _
      rw [h.parity_eq, hnew]
    · show msb (l.chain r (1 + m)).1 i = _
      by_cases hi : i = l._k + (1 + m)
      · rw [if_pos (by omega), hi, hnew, Nat.add_sub_cancel_left, Nat.add_comm]
      · rw [hbit, hbits, decide_eq_false hi, Bool.and_false, Bool.xor_false]
        by_cases hle : l._k ≤ i ∧ i ≤ l._k + m
        · rw [if_pos hle, if_pos (by omega)]
        · rw [if_neg hle, if_neg (by omega)]

theorem sys_check_self (l : Ldpc) : l._sys_check l._n = .ok () := if_neg (not_not.2 rfl)

/-- **What the encoder makes.** The information bits, and behind them the chain of their sums. -/
theorem encoder_eq (h : l.Code) (hlen : l._n / 8 ≤ block.length) :
    ∃ word, l.encoder block l._n = .ok word ∧ word.length = block.length ∧
      ∀ i, msb word i = if l._k ≤ i ∧ i < l._n then running (l.sum block) (i - l._k) else msb block i := by
  obtain ⟨hlength, hbits⟩ := h.msb_accumulate hlen
  have hpos := h.pos
  have hn := h.length
  have hchain := h.foldl_chain (m := l._p - 1) (hlength.symm ▸ hlen) (by omega)
  simp only at hchain
  set b := (List.range l._k).foldl l.accumulate (clear block (l._k / 8) (l._p / 8))
  obtain ⟨hlength', -, hword⟩ := hchain
  refine ⟨_, by rw [encoder, sys_check_self]; rfl, hlength'.trans hlength, fun i => ?_⟩
  rw [hword]
  have hrunning : ∀ j < l._p, running (fun j => msb b (l._k + j)) j = running (l.sum block) j := by
    intro j hj
    induction j with
    | zero =>
      show msb b (l._k + 0) = _
      rw [hbits, if_pos (by omega), Nat.add_sub_cancel_left]
      rfl
    | succ j ih =>
      show (msb b (l._k + (j + 1)) ^^ _) = _
      rw [hbits, if_pos (by omega), Nat.add_sub_cancel_left, ih (by omega)]
      rfl
  by_cases hi : l._k ≤ i ∧ i < l._n
  · rw [if_pos (by omega), if_pos hi, hrunning _ (by omega)]
  · rw [if_neg (by omega), if_neg hi, hbits, if_neg hi]

/-! ### The parity check -/

/-- The counters count. -/
theorem getElem?_counts (vs : List ℕ) (init : List ℕ) (c : ℕ) :
    (vs.foldl (fun parity_check vnode_no =>
      if _bit block vnode_no then
        (l.cnodes vnode_no).foldl (fun parity_check c => parity_check.modify c (· + 1)) parity_check
      else parity_check) init)[c]? = init[c]?.map (· + (l.reached block vs).count c) := by
  have hone : ∀ (cs init : List ℕ), (cs.foldl (fun parity_check c => parity_check.modify c (· + 1)) init)[c]? =
      init[c]?.map (· + cs.count c) := by
    intro cs
    induction cs with
    | nil => intro init; simp
    | cons d cs ih =>
      intro init
      rw [List.foldl_cons, ih, List.getElem?_modify, List.count_cons]
      by_cases hd : d = c
      · subst hd
        cases init[d]? with
        | none => rfl
        | some n => simp [Nat.add_assoc, Nat.add_comm 1]
      · cases init[c]? with
        | none => rfl
        | some n => simp [hd]
  induction vs generalizing init with
  | nil => simp [reached]
  | cons v vs ih =>
    rw [List.foldl_cons, ih, reached_cons, List.count_append, _bit_eq]
    cases msb block v with
    | false => simp
    | true =>
      simp only [if_true, hone, Option.map_map]
      congr 1
      funext n
      exact Nat.add_assoc _ _ _

/-- The check at a c-node. -/
theorem parity_check_eq_zero : l.parity_check block l._n = .ok 0 ↔
    ∀ c < l._p, odd (l.reached block (List.range l._n)) c = false := by
  have hcount : ∀ c, (l.counts block)[c]? =
      if c < l._p then some ((l.reached block (List.range l._n)).count c) else none := by
    intro c
    rw [counts, getElem?_counts, List.getElem?_replicate]
    split
    · simp
    · rfl
  rw [parity_check, sys_check_self]
  show Except.ok ((l.counts block).map fun c => c % 2).sum = Except.ok 0 ↔ _
  rw [Except.ok.injEq, List.sum_eq_zero_iff_forall_eq_nat]
  constructor
  · intro hzero c hc
    have hmem := List.mem_of_getElem? ((hcount c).trans (if_pos hc))
    have := hzero _ (List.mem_map_of_mem hmem)
    exact decide_eq_false (by omega)
  · intro hodd n hn
    obtain ⟨k, hk, rfl⟩ := List.mem_map.1 hn
    obtain ⟨c, hc⟩ := List.mem_iff_getElem?.1 hk
    rw [hcount] at hc
    split at hc
    next hlt =>
      obtain rfl := Option.some.inj hc
      have := of_decide_eq_false (hodd c hlt)
      omega
    next => cases hc

/-- The parity bit `m` goes to its own c-node and to the next one, if there is one. -/
theorem odd_cnodes_parity (h : l.Code) {c m : ℕ} (hc : c < l._p) (hm : m < l._p) :
    odd (if msb block (l._k + m) then l.cnodes (l._k + m) else []) c =
      (msb block (l._k + m) && (decide (c = m) ^^ decide (c = m + 1))) := by
  split
  next hbit =>
    rw [hbit, Bool.true_and, h.parity m hm]
    split
    · rw [show [m, m + 1] = [m] ++ [m + 1] from rfl, odd_append, odd_singleton, odd_singleton]
    · rw [odd_singleton, decide_eq_false (show ¬ c = m + 1 by omega), Bool.xor_false]
  next hbit => rw [odd_nil, Bool.eq_false_iff.2 hbit, Bool.false_and]

/-- The edges of the parity bits: two at each c-node, one at the first. -/
theorem odd_parity (h : l.Code) {c m : ℕ} (hc : c < l._p) (hm : m ≤ l._p) :
    odd (l.reached block ((List.range m).map (l._k + ·))) c =
      ((decide (c < m) && msb block (l._k + c)) ^^
        (decide (0 < c ∧ c ≤ m) && msb block (l._k + (c - 1)))) := by
  induction m with
  | zero => simp [reached, Nat.pos_iff_ne_zero]
  | succ m ih =>
    rw [List.range_succ, List.map_append, reached_append, odd_append, ih (by omega), List.map_singleton,
      reached_cons, odd_append, h.odd_cnodes_parity hc (by omega)]
    show (_ ^^ (_ ^^ false)) = _
    rw [Bool.xor_false]
    -- the new bit is that of the c-node itself, or that of the one before
    rcases Nat.lt_trichotomy c m with hlt | rfl | hgt
    · rw [decide_eq_false (show ¬ c = m by omega), decide_eq_false (show ¬ c = m + 1 by omega), Bool.xor_false,
        Bool.and_false, Bool.xor_false, decide_eq_true hlt, decide_eq_true (show c < m + 1 by omega)]
      congr 2
      exact decide_eq_decide.2 (by omega)
    · rw [decide_eq_false (lt_irrefl c), Bool.false_and, Bool.false_xor, decide_eq_true rfl,
        decide_eq_false (show ¬ c = c + 1 by omega), Bool.xor_false, Bool.and_true, Bool.xor_comm,
        decide_eq_true (show c < c + 1 by omega), Bool.true_and]
      congr 2
      exact decide_eq_decide.2 (by omega)
    · rw [decide_eq_false (show ¬ c < m by omega), decide_eq_false (show ¬ (0 < c ∧ c ≤ m) by omega),
        decide_eq_false (show ¬ c < m + 1 by omega), decide_eq_false (show ¬ c = m by omega)]
      simp only [Bool.false_and, Bool.false_xor]
      by_cases hnext : c = m + 1
      · subst hnext
        rw [decide_eq_true rfl, Bool.and_true, decide_eq_true (show 0 < m + 1 ∧ m + 1 ≤ m + 1 by omega),
          Bool.true_and, Nat.add_sub_cancel]
      · rw [decide_eq_false hnext, Bool.and_false, decide_eq_false (show ¬ (0 < c ∧ c ≤ m + 1) by omega),
          Bool.false_and]

/-- **The parity check.** It finds nothing exactly where the parity bits are those of the encoder. -/
theorem parity_check_eq_zero_iff (h : l.Code) : l.parity_check block l._n = .ok 0 ↔
    ∀ j < l._p, msb block (l._k + j) = running (l.sum block) j := by
  have hn := h.length
  have hodd : ∀ c < l._p, odd (l.reached block (List.range l._n)) c =
      (l.sum block c ^^ (msb block (l._k + c) ^^ (decide (0 < c) && msb block (l._k + (c - 1))))) := by
    intro c hc
    rw [h.length, List.range_add, reached_append, odd_append, h.odd_parity hc (Nat.le_refl _),
      decide_eq_true hc, Bool.true_and]
    have : decide (0 < c ∧ c ≤ l._p) = decide (0 < c) := decide_eq_decide.2 (by omega)
    rw [this]
    rfl
  rw [parity_check_eq_zero]
  constructor
  · intro hzero j hj
    induction j with
    | zero =>
      have h0 := hzero 0 hj
      rw [hodd 0 hj, decide_eq_false (lt_irrefl 0), Bool.false_and, Bool.xor_false] at h0
      show _ = l.sum block 0
      revert h0
      cases l.sum block 0 <;> cases msb block (l._k + 0) <;> decide
    | succ j ih =>
      have hs := hzero (j + 1) hj
      rw [hodd _ hj, decide_eq_true (Nat.succ_pos j), Bool.true_and, Nat.add_sub_cancel,
        ih (by omega)] at hs
      show _ = (l.sum block (j + 1) ^^ running (l.sum block) j)
      revert hs
      cases l.sum block (j + 1) <;> cases msb block (l._k + (j + 1)) <;>
        cases running (l.sum block) j <;> decide
  · intro hbits c hc
    rw [hodd c hc, hbits c hc]
    cases c with
    | zero => simp [running]
    | succ j =>
      rw [decide_eq_true (Nat.succ_pos j), Bool.true_and, Nat.add_sub_cancel, hbits j (by omega)]
      show (l.sum block (j + 1) ^^ ((l.sum block (j + 1) ^^ running (l.sum block) j) ^^ _)) = false
      cases l.sum block (j + 1) <;> cases running (l.sum block) j <;> rfl

/-- The encoder keeps what is not a parity bit, and leaves alone exactly the blocks that pass the check. -/
theorem encoder_word (h : l.Code) (hlen : l._n / 8 ≤ block.length) :
    ∃ word, l.encoder block l._n = .ok word ∧ word.length = block.length ∧
      (∀ i, i < l._k ∨ l._n ≤ i → _bit word i = _bit block i) ∧
      (l.parity_check block l._n = .ok 0 ↔ word = block) ∧ l.parity_check word l._n = .ok 0 := by
  obtain ⟨word, hword, hlength, hbits⟩ := h.encoder_eq hlen
  have hn := h.length
  have hkeep : ∀ i, i < l._k ∨ l._n ≤ i → _bit word i = _bit block i := by
    intro i hi
    rw [_bit_eq, _bit_eq, hbits, if_neg (by omega)]
  have hsum : l.sum word = l.sum block := by
    funext c
    unfold Ldpc.sum
    rw [reached_congr fun v hv => ?_]
    rw [hbits, if_neg (by have := List.mem_range.1 hv; omega)]
  have hpass : l.parity_check word l._n = .ok 0 := by
    rw [h.parity_check_eq_zero_iff]
    intro j hj
    rw [hbits, if_pos (by omega), Nat.add_sub_cancel_left, hsum]
  refine ⟨word, hword, hlength, hkeep, ⟨fun hzero => ?_, ?_⟩, hpass⟩
  · have hblock := h.parity_check_eq_zero_iff.1 hzero
    refine ext_msb hlength fun i _ => ?_
    rw [hbits]
    split
    next hi =>
      obtain ⟨j, rfl⟩ := Nat.exists_eq_add_of_le hi.1
      rw [Nat.add_sub_cancel_left, hblock j (by omega)]
    next => rfl
  · rintro rfl
    exact hpass

end Code

/-- A block that passes the check does not go through the iterations. -/
theorem decoder_of_parity_check (h : l.parity_check block l._n = .ok 0)
    (iterations : List (BitVec 8) → Bool × (ℕ → Bool)) :
    l.decoder iterations block l._n = .ok (0, block) := by
  rw [decoder, Code.sys_check_self, h]
  rfl

/-- **The LDPC codes.** Every code is set up without a failed assertion. The encoder keeps the information
    bits and what is behind the block, the blocks that pass the parity check are those that the encoder
    leaves alone, and what it makes passes the decoder unchanged. -/
theorem encoder_codeword (type : CodingType) : ∃ l, init type = .ok l ∧
    ∀ block : List (BitVec 8), l._n / 8 ≤ block.length → ∃ word, l.encoder block l._n = .ok word ∧
      word.length = block.length ∧ (∀ i, i < l._k ∨ l._n ≤ i → _bit word i = _bit block i) ∧
      (l.parity_check block l._n = .ok 0 ↔ word = block) ∧ l.parity_check word l._n = .ok 0 ∧
      ∀ iterations, l.decoder iterations word l._n = .ok (0, word) := by
  obtain ⟨l, hinit, h, -, -⟩ := init_code type
  refine ⟨l, hinit, fun block hlen => ?_⟩
  obtain ⟨word, hword, hlength, hkeep, hfixed, hpass⟩ := h.encoder_word hlen
  exact ⟨word, hword, hlength, hkeep, hfixed, hpass, decoder_of_parity_check hpass⟩

end Ldpc

end Dvb
