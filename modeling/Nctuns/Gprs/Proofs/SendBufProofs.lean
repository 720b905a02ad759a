import Mathlib.Tactic.Common
import Mathlib.Data.List.MinMax
import Nctuns.Gprs.StateArray

/-!
# The ring of a sender

With blocks numbered from the first one on, the ring holds those from `lo` to `hi` that have not been
acknowledged, each in the slot of its number, and nothing else.
-/

namespace Gprs

/-! ## Slots -/

namespace StateArray

variable {a : StateArray} {e : AckStateArrayElem} {i j hd tl : Nat}

/-- One slot is written. -/
theorem slot_put (h : i < a.array.length) :
    (StateArray.mk (a.put i e) hd tl).slot j = if j = i then e else a.slot j := by
  unfold slot put
  rw [List.getD_eq_getElem?_getD, List.getD_eq_getElem?_getD, List.getElem?_set]
  by_cases hij : j = i
  · rw [if_pos hij.symm, if_pos h, if_pos hij]
    rfl
  · rw [if_neg (Ne.symm hij), if_neg hij]

@[simp] theorem length_put : (a.put i e).length = a.array.length := List.length_set

/-- Writing what is there changes nothing. -/
theorem put_slot (he : e = a.slot i) : a.put i e = a.array := by
  subst he
  unfold slot put
  by_cases h : i < a.array.length
  · rw [List.getD_eq_getElem?_getD, List.getElem?_eq_getElem h]
    exact List.set_getElem_self h
  · exact List.set_eq_of_length_le (by omega)

/-- All slots are empty. -/
theorem slot_init (i : Nat) : StateArray.init.slot i = .init := by
  unfold slot StateArray.init
  rw [List.getD_eq_getElem?_getD, List.getElem?_replicate]
  split_ifs <;> rfl

end StateArray

namespace SendBuf

variable {b b' : SendBuf} {lo hi i j n : Nat} {is : List Nat} {e blk : Blk} {ack : AckNack}

/-- Nothing is waited for in an empty slot. -/
theorem not_unacked_of_init (h : b.slot i = .init) : ¬ b.unacked i := by
  unfold unacked
  rw [h]
  decide

/-! ## The invariant -/

/-- The ring holds blocks from `lo` to `hi`. -/
structure Ring (b : SendBuf) (lo hi : Nat) : Prop where
  length : b.array.length = GPRS_SNS
  tail : b.tail = lo % GPRS_SNS
  head : b.head = hi % GPRS_SNS
  le : lo ≤ hi
  room : hi ≤ lo + GPRS_SNS
  held : ∀ i, b.unacked i → ∃ n, lo ≤ n ∧ n < hi ∧ n % GPRS_SNS = i ∧
    (b.slot i).upper_layer_pdu = some { user_data_bsn := i, serial := n }
  free : ∀ i, ¬ b.unacked i → b.slot i = .init

/-- The oldest block has not been acknowledged. -/
def Trimmed (b : SendBuf) (lo hi : Nat) : Prop := lo < hi → b.unacked (lo % GPRS_SNS)

/-- An empty ring. -/
theorem Ring.init : Ring .init 0 0 where
  length := List.length_replicate
  tail := rfl
  head := rfl
  le := le_refl _
  room := by decide
  held := by
    intro i hi
    exact absurd hi (not_unacked_of_init (StateArray.slot_init i))
  free := by
    intro i _
    exact StateArray.slot_init i

/-- The slot of a block in the ring holds that block. -/
theorem Ring.pdu (h : Ring b lo hi) (hlo : lo ≤ n) (hhi : n < hi) (hn : b.unacked (n % GPRS_SNS)) :
    (b.slot (n % GPRS_SNS)).upper_layer_pdu =
      some { user_data_bsn := n % GPRS_SNS, serial := n } := by
  obtain ⟨m, hm1, hm2, hm3, hm4⟩ := h.held _ hn
  have hroom := h.room
  have hmn : m = n := by simp only [GPRS_SNS] at *; omega
  rw [hm4, hmn]

/-- What is waited for is in a slot. -/
theorem Ring.lt_SNS (h : Ring b lo hi) (hi' : b.unacked i) : i < GPRS_SNS := by
  obtain ⟨n, -, -, rfl, -⟩ := h.held i hi'
  exact Nat.mod_lt _ (by decide)

/-- A slot behind the head is free while the ring is not full. -/
theorem Ring.free_head (h : Ring b lo hi) (hfull : hi < lo + GPRS_SNS) : b.slot b.head = .init := by
  apply h.free
  intro hun
  obtain ⟨n, hn1, hn2, hn3, -⟩ := h.held _ hun
  have hhead := h.head
  simp only [GPRS_SNS] at *
  omega

/-- The ring depends on the array and its ends alone. -/
theorem Ring.congr (h : Ring b lo hi) (hb : b'.toStateArray = b.toStateArray) : Ring b' lo hi := by
  obtain ⟨b'', vs, va, cur⟩ := b'
  dsimp only at hb
  subst hb
  exact ⟨h.length, h.tail, h.head, h.le, h.room, h.held, h.free⟩

/-! ## `forward_tail` and `recycle` -/

/-- What the loops of `forward_tail` end with: the first slot that is not acknowledged, or the last one. -/
theorem scan_spec (b : SendBuf) (is : List Nat) (tail : Nat) (meet : Bool) :
    (∃ pre i post, is = pre ++ i :: post ∧ b.unacked i ∧ (∀ j ∈ pre, ¬ b.unacked j) ∧
      (b.scan is tail meet).1 = i ∧
      ((b.scan is tail meet).2.1 = true ↔ meet = true ∨ b.vs ∈ pre ++ [i])) ∨
    (∀ j ∈ is, ¬ b.unacked j) ∧ (b.scan is tail meet).1 = is.getLastD tail ∧
      ((b.scan is tail meet).2.1 = true ↔ meet = true ∨ b.vs ∈ is) := by
  induction is generalizing tail meet with
  | nil => exact Or.inr ⟨by simp, rfl, by simp [scan]⟩
  | cons i is ih =>
    have hmeet : (meet || i == b.vs) = true ↔ meet = true ∨ b.vs = i := by
      rw [Bool.or_eq_true, beq_iff_eq, eq_comm (a := i)]
    by_cases hi : b.unacked i
    · have hscan : b.scan (i :: is) tail meet = (i, meet || i == b.vs, true) := if_pos hi
      refine Or.inl ⟨[], i, is, rfl, hi, by simp, ?_, ?_⟩
      · rw [hscan]
      · rw [hscan, List.nil_append, List.mem_singleton]
        exact hmeet
    · have hscan : b.scan (i :: is) tail meet = b.scan is i (meet || i == b.vs) := if_neg hi
      rw [hscan]
      rcases ih i (meet || i == b.vs) with ⟨pre, k, post, rfl, hk, hpre, htail, hvs⟩ | ⟨hall, htail, hvs⟩
      · refine Or.inl ⟨i :: pre, k, post, rfl, hk, ?_, htail, ?_⟩
        · intro j hj
          rcases List.mem_cons.1 hj with rfl | hj
          · exact hi
          · exact hpre j hj
        · rw [hvs, hmeet, List.cons_append, List.mem_cons, or_assoc]
      · refine Or.inr ⟨?_, ?_, ?_⟩
        · intro j hj
          rcases List.mem_cons.1 hj with rfl | hj
          · exact hi
          · exact hall j hj
        · rw [htail, List.getLastD_cons]
        · rw [hvs, hmeet, List.mem_cons, or_assoc]

/-- The slots that `forward_tail` looks at. -/
theorem Ring.scanned (h : Ring b lo hi) (hlt : lo < hi) (hfull : hi < lo + GPRS_SNS) :
    b.scanned = (List.range (hi + 1 - lo)).map fun k => (lo + k) % GPRS_SNS := by
  have htail := h.tail
  have hhead := h.head
  simp only [GPRS_SNS] at *
  unfold SendBuf.scanned
  split_ifs with h1 h2
  · apply List.ext_getElem
    · simp only [List.length_range', List.length_map, List.length_range]
      omega
    · intro k hk1 hk2
      simp only [List.length_range'] at hk1
      simp only [List.getElem_range', List.getElem_map, List.getElem_range]
      omega
  · apply List.ext_getElem
    · simp only [GPRS_SNS, List.length_append, List.length_range', List.length_map,
        List.length_range]
      omega
    · intro k hk1 hk2
      simp only [List.length_map, List.length_range] at hk2
      simp only [GPRS_SNS, List.getElem_append, List.getElem_range', List.length_range',
        List.getElem_map, List.getElem_range]
      split_ifs <;> omega
  · omega

/-- What the scan of `forward_tail` finds: the oldest block that has not been acknowledged. -/
theorem Ring.scan (h : Ring b lo hi) (hlt : lo < hi) (hfull : hi < lo + GPRS_SNS) :
    ∃ lo', lo ≤ lo' ∧ lo' ≤ hi ∧ (∀ n, lo ≤ n → n < lo' → ¬ b.unacked (n % GPRS_SNS)) ∧
      (lo' < hi → b.unacked (lo' % GPRS_SNS)) ∧
      (b.scan b.scanned b.tail false).1 = lo' % GPRS_SNS ∧
      ((b.scan b.scanned b.tail false).2.1 = true ↔
        ∃ n, lo ≤ n ∧ n ≤ lo' ∧ b.vs = n % GPRS_SNS) := by
  rw [h.scanned hlt hfull]
  rcases scan_spec b ((List.range (hi + 1 - lo)).map fun k => (lo + k) % GPRS_SNS) b.tail false with
    ⟨pre, i, post, hsplit, hi', hpre, htail, hvs⟩ | ⟨hall, htail, hvs⟩
  · have hlen : pre.length < hi + 1 - lo := by
      have := congrArg List.length hsplit
      simp only [List.length_map, List.length_range, List.length_append, List.length_cons] at this
      omega
    have hpre_eq : pre = (List.range pre.length).map fun k => (lo + k) % GPRS_SNS := by
      have := congrArg (List.take pre.length) hsplit
      rw [List.take_left, ← List.map_take, List.take_range, Nat.min_eq_left (by omega)] at this
      exact this.symm
    have hi_eq : (lo + pre.length) % GPRS_SNS = i := by
      have := congrArg (fun l => l[pre.length]?) hsplit
      simpa [hlen] using this
    have hlast : lo + pre.length ≠ hi := by
      intro heq
      have hfree := h.free_head hfull
      rw [h.head, ← heq, hi_eq] at hfree
      exact not_unacked_of_init hfree hi'
    refine ⟨lo + pre.length, by omega, by omega, ?_, ?_, ?_, ?_⟩
    · intro n hn1 hn2
      apply hpre
      rw [hpre_eq, List.mem_map]
      exact ⟨n - lo, List.mem_range.2 (by omega), by congr 1; omega⟩
    · intro _
      rw [hi_eq]
      exact hi'
    · rw [htail, hi_eq]
    · rw [hvs, hpre_eq]
      simp only [Bool.false_eq_true, false_or, List.mem_append, List.mem_map, List.mem_range,
        List.mem_singleton, List.length_map, List.length_range]
      constructor
      · rintro (⟨k, hk, hkvs⟩ | hvs)
        · exact ⟨lo + k, by omega, by omega, hkvs.symm⟩
        · exact ⟨lo + pre.length, by omega, le_refl _, hvs.trans hi_eq.symm⟩
      · rintro ⟨n, hn1, hn2, hn3⟩
        rcases Nat.lt_or_eq_of_le hn2 with hn2 | rfl
        · exact Or.inl ⟨n - lo, by omega, by rw [hn3]; congr 1; omega⟩
        · exact Or.inr (hn3.trans hi_eq)
  · refine ⟨hi, h.le, le_refl _, ?_, by omega, ?_, ?_⟩
    · intro n hn1 hn2
      apply hall
      rw [List.mem_map]
      exact ⟨n - lo, List.mem_range.2 (by omega), by congr 1; omega⟩
    · rw [htail]
      have hsucc : hi + 1 - lo = (hi - lo) + 1 := by omega
      rw [hsucc, List.range_succ, List.map_append, List.map_singleton, List.getLastD_concat]
      congr 1
      omega
    · rw [hvs]
      simp only [Bool.false_eq_true, false_or, List.mem_map, List.mem_range]
      constructor
      · rintro ⟨k, hk, hkvs⟩
        exact ⟨lo + k, by omega, by omega, hkvs.symm⟩
      · rintro ⟨n, hn1, hn2, hn3⟩
        exact ⟨n - lo, by omega, by rw [hn3]; congr 1; omega⟩

@[simp] theorem forward_tail_array (b : SendBuf) : b.forward_tail.array = b.array := by
  unfold forward_tail
  dsimp only
  split
  · split <;> rfl
  · rfl

@[simp] theorem forward_tail_head (b : SendBuf) : b.forward_tail.head = b.head := by
  unfold forward_tail
  dsimp only
  split
  · split <;> rfl
  · rfl

/-- Where the tail goes. -/
theorem forward_tail_tail (b : SendBuf) :
    b.forward_tail.tail = (b.scan b.scanned b.tail false).1 := by
  unfold forward_tail
  dsimp only
  split
  · split <;> rfl
  · rfl

/-- The oldest block that is waited for is at the tail. -/
theorem forward_tail_va (b : SendBuf) : b.forward_tail.va = b.forward_tail.tail := by
  unfold forward_tail
  dsimp only
  split
  · split <;> rfl
  · rfl

/-- What is to be sent next, if the tail has passed it. -/
theorem forward_tail_vs (b : SendBuf) :
    b.forward_tail.vs = if (b.scan b.scanned b.tail false).2.1 then
      match (List.range GPRS_WS).find? fun i =>
        (b.slot ((b.forward_tail.tail + i) % GPRS_SNS)).state = NACK with
      | some i => (b.forward_tail.tail + i) % GPRS_SNS
      | none => b.forward_tail.tail
    else b.vs := by
  have hvs : ∀ (b : SendBuf) (found : Option Nat),
      (match found with
        | some i => { b with vs := (b.tail + i) % GPRS_SNS }
        | none => { b with vs := b.va } : SendBuf).vs =
      match found with
        | some i => (b.tail + i) % GPRS_SNS
        | none => b.va := by
    intro b found
    cases found <;> rfl
  rw [forward_tail_tail]
  unfold forward_tail
  dsimp only
  split
  · exact hvs _ _
  · rfl

@[simp] theorem forward_tail_cur (b : SendBuf) :
    b.forward_tail.cur_sent_pending_acked_bsn = b.cur_sent_pending_acked_bsn := by
  unfold forward_tail
  dsimp only
  split
  · split <;> rfl
  · rfl

@[simp] theorem slot_forward_tail (b : SendBuf) (i : Nat) : b.forward_tail.slot i = b.slot i := by
  unfold StateArray.slot
  rw [forward_tail_array]

/-- The tail leaves what is waited for. -/
@[simp] theorem unacked_forward_tail : b.forward_tail.unacked i ↔ b.unacked i := by
  unfold unacked
  rw [slot_forward_tail]

/-- A ring without blocks, or one whose ends are the same, is not scanned. -/
theorem scanned_of_eq (h : b.tail = b.head) : b.scanned = [] := by
  unfold SendBuf.scanned
  rw [if_neg (by omega), if_neg (by omega)]

/-- After `forward_tail` the tail is at the oldest block that has not been acknowledged. -/
theorem Ring.forward_tail (h : Ring b lo hi) (hfull : hi = lo + GPRS_SNS → Trimmed b lo hi) :
    ∃ lo', lo ≤ lo' ∧ Ring b.forward_tail lo' hi ∧ Trimmed b.forward_tail lo' hi ∧
      (∀ n, lo ≤ n → n < lo' → ¬ b.unacked (n % GPRS_SNS)) ∧
      ((b.scan b.scanned b.tail false).2.1 = true → ∃ n, lo ≤ n ∧ n ≤ lo' ∧ b.vs = n % GPRS_SNS) := by
  by_cases hends : lo < hi ∧ hi < lo + GPRS_SNS
  · obtain ⟨lo', hlo, hhi, hpast, hold, htail, hvs⟩ := h.scan hends.1 hends.2
    refine ⟨lo', hlo, ?_, ?_, hpast, hvs.1⟩
    · constructor
      · rw [forward_tail_array]
        exact h.length
      · rw [forward_tail_tail, htail]
      · rw [forward_tail_head]
        exact h.head
      · exact hhi
      · have := h.room
        omega
      · intro i hi'
        rw [unacked_forward_tail] at hi'
        rw [slot_forward_tail]
        obtain ⟨n, hn1, hn2, hn3, hn4⟩ := h.held i hi'
        refine ⟨n, ?_, hn2, hn3, hn4⟩
        by_contra hlt
        exact hpast n hn1 (by omega) (hn3 ▸ hi')
      · intro i hi'
        rw [unacked_forward_tail] at hi'
        rw [slot_forward_tail]
        exact h.free i hi'
    · intro hlt
      rw [unacked_forward_tail]
      exact hold hlt
  · have hle := h.le
    have hroom := h.room
    have heq : b.tail = b.head := by
      rw [h.tail, h.head]
      simp only [GPRS_SNS] at *
      omega
    have hscan : b.scan b.scanned b.tail false = (b.tail, false, false) := by
      rw [scanned_of_eq heq]
      rfl
    refine ⟨lo, le_refl _, ?_, ?_, fun n h1 h2 => by omega, ?_⟩
    · constructor
      · rw [forward_tail_array]
        exact h.length
      · rw [forward_tail_tail, hscan]
        exact h.tail
      · rw [forward_tail_head]
        exact h.head
      · exact hle
      · exact hroom
      · intro i hi'
        rw [unacked_forward_tail] at hi'
        rw [slot_forward_tail]
        exact h.held i hi'
      · intro i hi'
        rw [unacked_forward_tail] at hi'
        rw [slot_forward_tail]
        exact h.free i hi'
    · intro hlt
      rw [unacked_forward_tail]
      exact hfull (by omega) hlt
    · rw [hscan]
      intro hfalse
      cases hfalse

/-- What `recycle` gives up is free. -/
theorem Ring.recycle_slots (h : Ring b lo hi) (inds : List Nat) : recycle_slots inds b = b := by
  induction inds with
  | nil => rfl
  | cons ind inds ih =>
    unfold SendBuf.recycle_slots
    split_ifs with hst
    · rfl
    · have hfree : b.slot ind = .init := by
        apply h.free
        intro hun
        apply hst
        rcases hun with hun | hun <;> rw [hun] <;> decide
      have hput : { b with array := b.put ind .init } = b := by
        rw [StateArray.put_slot hfree.symm]
      rw [hput]
      exact ih

/-- There is nothing to be emptied. -/
theorem Ring.recycle (h : Ring b lo hi) : b.recycle = b.forward_tail := by
  unfold SendBuf.recycle
  rw [h.recycle_slots]

/-- With the tail at the oldest block, `recycle` moves none of the ends. -/
theorem Ring.recycle_ring (h : Ring b lo hi) (ht : Trimmed b lo hi) :
    b.recycle.toStateArray = b.toStateArray := by
  rw [h.recycle]
  obtain ⟨lo', hlo, hring, -, hpast, -⟩ := h.forward_tail fun _ => ht
  have hlo' : lo' = lo := by
    have hle := hring.le
    by_contra hne
    exact hpast lo (le_refl _) (by omega) (ht (by omega))
  have htail : b.forward_tail.tail = b.tail := by rw [hring.tail, hlo', h.tail]
  show StateArray.mk b.forward_tail.array b.forward_tail.head b.forward_tail.tail = _
  rw [forward_tail_array, forward_tail_head, htail]

/-! ## `insert` -/

/-- The ring with a block put in at the head. -/
def pushed (b : SendBuf) (e : Blk) : SendBuf :=
  { b with
    array := b.put b.head { state := NACK, bsn := b.head, upper_layer_pdu := some e }
    head := (b.head + 1) % GPRS_SNS }

/-- What `insert` does at the head. The ring is full in the last case, and takes it for an empty one. -/
theorem Ring.insert (h : Ring b lo hi) (ht : Trimmed b lo hi) :
    b.insert e b.head =
      if b.head + 1 = b.tail then .ok (false, b.recycle)
      else if hi < lo + GPRS_SNS then .ok (true, b.recycle.pushed e)
      else .error .exit := by
  have hring := h.recycle_ring ht
  have hhead : b.recycle.head = b.head := congrArg StateArray.head hring
  have htail : b.recycle.tail = b.tail := congrArg StateArray.tail hring
  have hslot : ∀ i, b.recycle.slot i = b.slot i := fun i => congrArg (fun a => a.slot i) hring
  have hlt : b.head < GPRS_SNS := by
    rw [h.head]
    exact Nat.mod_lt _ (by decide)
  have hrange : StateArray.range_test b.head := hlt
  have hmod : b.head = b.head % GPRS_SNS := (Nat.mod_eq_of_lt hlt).symm
  have hfull : b.recycle.is_full ↔ b.head + 1 = b.tail := by
    unfold StateArray.is_full
    rw [hhead, htail]
    rfl
  unfold SendBuf.insert
  dsimp only
  rw [if_neg (not_not.2 hrange), hhead, if_neg (not_not.2 hmod), hslot]
  by_cases h1 : b.head + 1 = b.tail
  · rw [if_pos (hfull.2 h1), if_pos h1]
  · rw [if_neg (fun hf => h1 (hfull.1 hf)), if_neg h1]
    by_cases h2 : hi < lo + GPRS_SNS
    · rw [if_pos (by rw [h.free_head h2]; rfl), if_pos h2]
      unfold pushed
      rw [hhead]
    · have hun : b.unacked b.head := by
        have hle := h.le
        have hroom := h.room
        have heq : b.head = lo % GPRS_SNS := by
          rw [h.head]
          simp only [GPRS_SNS] at *
          omega
        rw [heq]
        exact ht (by simp only [GPRS_SNS] at *; omega)
      have hinv : (b.slot b.head).state ≠ INVALID := by
        rcases hun with hun | hun <;> rw [hun] <;> decide
      rw [if_neg hinv, if_neg h2]

/-- A block is put into the slot at the head. -/
theorem slot_pushed (hlen : b.head < b.array.length) :
    (b.pushed e).slot i =
      if i = b.head then { state := NACK, bsn := b.head, upper_layer_pdu := some e }
      else b.slot i :=
  StateArray.slot_put hlen

/-- The head is a slot. -/
theorem Ring.head_lt (h : Ring b lo hi) : b.head < b.array.length := by
  rw [h.length, h.head]
  exact Nat.mod_lt _ (by decide)

/-- The block that is put in is the newest one. -/
theorem Ring.pushed (h : Ring b lo hi) (hfull : hi < lo + GPRS_SNS) :
    Ring (b.pushed { user_data_bsn := b.head, serial := hi }) lo (hi + 1) := by
  have hun : ∀ i, (b.pushed { user_data_bsn := b.head, serial := hi }).unacked i ↔
      i = b.head ∨ b.unacked i := by
    intro i
    unfold unacked
    rw [slot_pushed h.head_lt]
    split_ifs with heq
    · exact ⟨fun _ => Or.inl heq, fun _ => Or.inr rfl⟩
    · exact ⟨Or.inr, fun h => h.resolve_left heq⟩
  constructor
  · exact (StateArray.length_put).trans h.length
  · exact h.tail
  · show (b.head + 1) % GPRS_SNS = (hi + 1) % GPRS_SNS
    rw [h.head, Nat.mod_add_mod]
  · exact Nat.le_succ_of_le h.le
  · exact hfull
  · intro i hi'
    rw [slot_pushed h.head_lt]
    rcases (hun i).1 hi' with rfl | hi'
    · exact ⟨hi, h.le, Nat.lt_succ_self _, h.head.symm, by rw [if_pos rfl]⟩
    · obtain ⟨n, hn1, hn2, hn3, hn4⟩ := h.held i hi'
      have hne : i ≠ b.head := by
        rintro rfl
        exact not_unacked_of_init (h.free_head hfull) hi'
      rw [if_neg hne]
      exact ⟨n, hn1, Nat.lt_succ_of_lt hn2, hn3, hn4⟩
  · intro i hi'
    have hne : i ≠ b.head := fun heq => hi' ((hun i).2 (Or.inl heq))
    rw [slot_pushed h.head_lt, if_neg hne]
    exact h.free i fun hb => hi' ((hun i).2 (Or.inr hb))

/-- A new block leaves the tail. -/
theorem Ring.pushed_trimmed (h : Ring b lo hi) (ht : Trimmed b lo hi) :
    Trimmed (b.pushed { user_data_bsn := b.head, serial := hi }) lo (hi + 1) := by
  intro hlt
  unfold unacked
  rw [slot_pushed h.head_lt]
  split_ifs with heq
  · exact Or.inr rfl
  · apply ht
    by_contra hge
    have hle := h.le
    exact heq (by rw [h.head, show lo = hi by omega])

/-! ## `get_transmitted_blk` -/

/-- Slot `i` has been handed out. -/
structure Handed (b b' : SendBuf) (i : Nat) : Prop where
  unacked : b.unacked i
  array : b'.array = b.put i { b.slot i with state := PENDING_ACK }
  head : b'.head = b.head
  tail : b'.tail = b.tail

/-- The search for a block leaves the ring. -/
theorem find_pending_ring (b : SendBuf) (is : List Nat) :
    (b.find_pending is).toStateArray = b.toStateArray := by
  induction is with
  | nil => rfl
  | cons i is ih =>
    unfold find_pending
    dsimp only
    split_ifs
    · rfl
    · rfl
    · exact ih

/-- No block, or one that is sent again. -/
theorem get_pending_blk_cases (b : SendBuf) :
    (b.get_pending_blk.1 = none ∧ b.get_pending_blk.2.toStateArray = b.toStateArray) ∨
      ∃ i, b.get_pending_blk.1 = (b.slot i).upper_layer_pdu ∧ Handed b b.get_pending_blk.2 i := by
  unfold get_pending_blk
  dsimp only
  generalize hb : (if ¬ b.within_cur_window b.cur_sent_pending_acked_bsn then
    { b with cur_sent_pending_acked_bsn := b.va } else b) = b1
  have hring : b1.toStateArray = b.toStateArray := by
    rw [← hb]
    split_ifs <;> rfl
  have hslot : ∀ {b2 : SendBuf}, b2.toStateArray = b.toStateArray → ∀ i, b2.slot i = b.slot i :=
    fun h i => congrArg (fun a => a.slot i) h
  have hhanded : ∀ {b2 : SendBuf}, b2.toStateArray = b.toStateArray →
      b2.unacked b2.cur_sent_pending_acked_bsn →
      ∃ i, b2.transmit_pending.1 = (b.slot i).upper_layer_pdu ∧ Handed b b2.transmit_pending.2 i := by
    intro b2 h2 hun
    refine ⟨b2.cur_sent_pending_acked_bsn, ?_, ?_, ?_, ?_, ?_⟩
    · rw [← hslot h2]
      rfl
    · unfold unacked
      rw [← hslot h2]
      exact hun
    · rw [← hslot h2]
      show b2.toStateArray.put _ _ = _
      rw [h2]
    · show b2.head = b.head
      exact congrArg StateArray.head h2
    · show b2.tail = b.tail
      exact congrArg StateArray.tail h2
  have hfind : (b1.find_pending (List.range GPRS_WS)).toStateArray = b.toStateArray :=
    (find_pending_ring b1 _).trans hring
  split_ifs with h1 h2
  · exact Or.inr (hhanded hring h1)
  · exact Or.inr (hhanded hfind (Or.inl h2))
  · exact Or.inl ⟨rfl, hfind⟩

/-- What is handed out is not acknowledged, and stays in its slot. -/
theorem get_transmitted_blk_cases (b : SendBuf) :
    (b.get_transmitted_blk.1 = none ∧ b.get_transmitted_blk.2.toStateArray = b.toStateArray) ∨
      ∃ i, b.get_transmitted_blk.1 = (b.slot i).upper_layer_pdu ∧
        Handed b b.get_transmitted_blk.2 i := by
  unfold get_transmitted_blk
  split_ifs with h1 h2
  · exact Or.inr ⟨b.vs, rfl, Or.inr h1.2, rfl, rfl, rfl⟩
  · exact get_pending_blk_cases b
  · exact Or.inl ⟨rfl, rfl⟩

/-- The slot of a block that is sent again. -/
theorem Handed.slot (h : Handed b b' i) (hlen : i < b.array.length) :
    b'.slot j = if j = i then { b.slot i with state := PENDING_ACK } else b.slot j := by
  have hslot : (StateArray.mk (b.put i { b.slot i with state := PENDING_ACK }) b'.head b'.tail).slot j =
      if j = i then { b.slot i with state := PENDING_ACK } else b.slot j :=
    StateArray.slot_put hlen
  rw [← h.array] at hslot
  exact hslot

/-- A block that is sent again is still waited for. -/
theorem Handed.unacked_iff (h : Handed b b' i) (hlen : i < b.array.length) :
    b'.unacked j ↔ b.unacked j := by
  rcases eq_or_ne j i with rfl | hne
  · refine ⟨fun _ => h.unacked, fun _ => Or.inl ?_⟩
    rw [h.slot hlen, if_pos rfl]
  · unfold SendBuf.unacked
    rw [h.slot hlen, if_neg hne]

/-- A block that is sent again stays in its slot. -/
theorem Handed.pdu (h : Handed b b' i) (hlen : i < b.array.length) :
    (b'.slot j).upper_layer_pdu = (b.slot j).upper_layer_pdu := by
  rw [h.slot hlen]
  split_ifs with heq
  · rw [heq]
  · rfl

/-- A block that is sent again leaves the ring. -/
theorem Ring.handed (h : Ring b lo hi) (hb : Handed b b' i) : Ring b' lo hi := by
  have hlen : i < b.array.length := by
    rw [h.length]
    exact h.lt_SNS hb.unacked
  constructor
  · rw [hb.array, StateArray.length_put]
    exact h.length
  · rw [hb.tail]
    exact h.tail
  · rw [hb.head]
    exact h.head
  · exact h.le
  · exact h.room
  · intro j hj
    rw [hb.pdu hlen]
    exact h.held j ((hb.unacked_iff hlen).1 hj)
  · intro j hj
    have hne : j ≠ i := by
      rintro rfl
      exact hj ((hb.unacked_iff hlen).2 hb.unacked)
    rw [hb.slot hlen, if_neg hne]
    exact h.free j fun hun => hj ((hb.unacked_iff hlen).2 hun)

/-! ## `process_ack` -/

theorem get_state_eq (hlt : i < GPRS_SNS) : b.get_state i = (b.slot i).state := if_pos hlt

/-- Slot `i` is given up. -/
def dropped (b : SendBuf) (i : Nat) : SendBuf := { b with array := b.put i .init }

/-- A slot is emptied. -/
theorem slot_dropped (hlen : i < b.array.length) :
    (b.dropped i).slot j = if j = i then .init else b.slot j :=
  StateArray.slot_put hlen

/-- A block that has been acknowledged is dropped. -/
theorem set_state_del (hlen : b.array.length = GPRS_SNS) (hlt : i < GPRS_SNS)
    (hpdu : (b.slot i).upper_layer_pdu = some blk) :
    (b.set_state i ACKED).del i = .ok (b.dropped i) := by
  have hset : b.set_state i ACKED = { b with array := b.put i { b.slot i with state := ACKED } } :=
    if_pos hlt
  have hslot : (b.set_state i ACKED).slot i = { b.slot i with state := ACKED } := by
    rw [hset, StateArray.slot_put (by rw [hlen]; exact hlt), if_pos rfl]
  unfold del
  rw [if_neg (by simp only [GPRS_SNS] at hlt; omega), hslot, if_pos rfl, if_pos (by simp [hpdu]), hset]
  unfold dropped StateArray.put
  rw [List.set_set]

/-- What is waited for, but for the block that is dropped. -/
theorem unacked_dropped (hlen : i < b.array.length) :
    (b.dropped i).unacked j ↔ j ≠ i ∧ b.unacked j := by
  unfold unacked
  rw [slot_dropped hlen]
  split_ifs with heq
  · simp [heq, AckStateArrayElem.init, INVALID, PENDING_ACK, NACK]
  · simp [heq]

/-- A block that is dropped leaves a ring. -/
theorem Ring.dropped (h : Ring b lo hi) (hlen : i < b.array.length) : Ring (b.dropped i) lo hi := by
  constructor
  · exact (StateArray.length_put).trans h.length
  · exact h.tail
  · exact h.head
  · exact h.le
  · exact h.room
  · intro j hj
    rw [unacked_dropped hlen] at hj
    rw [slot_dropped hlen, if_neg hj.1]
    exact h.held j hj.2
  · intro j hj
    rw [slot_dropped hlen]
    split_ifs with heq
    · rfl
    · exact h.free j fun hun => hj ((unacked_dropped hlen).2 ⟨heq, hun⟩)

/-- What a bitmap has done to the ring: each slot is as before, or its block has been sent and is now
    acknowledged. -/
structure Marks (b b' : SendBuf) (acked : List Blk) : Prop where
  head : b'.head = b.head
  tail : b'.tail = b.tail
  vs : b'.vs = b.vs
  cur : b'.cur_sent_pending_acked_bsn = b.cur_sent_pending_acked_bsn
  slot : ∀ j, b'.slot j = b.slot j ∨ (b.slot j).state = PENDING_ACK ∧ b'.slot j = .init ∧
    ∃ blk ∈ acked, (b.slot j).upper_layer_pdu = some blk

/-- The slot that bit `i` of an acknowledgement is about. -/
def bitSlot (ack : AckNack) (i : Nat) : Nat := slotBefore ack.starting_sequence_number (i + 1)

/-- Bit `i` acknowledges `blk`, and the bits `pre` before it have not reached an end of the ring. -/
def Reaches (b : SendBuf) (ack : AckNack) (pre : List Nat) (i : Nat) (blk : Blk) : Prop :=
  ack.received_block_bitmap.getD i 0 = ACKED ∧ b.unacked (bitSlot ack i) ∧
    (b.slot (bitSlot ack i)).upper_layer_pdu = some blk ∧ bitSlot ack i ≠ b.head ∧
    ∀ j ∈ pre, bitSlot ack j ≠ b.head ∧ bitSlot ack j ≠ b.tail

/-- The loop of `process_ack` does not stop the program. -/
theorem Ring.process_bits (ack : AckNack) (is : List Nat) (h : Ring b lo hi) (flag : Bool) (acked : List Blk) :
    ∃ b' acked', process_bits ack b.head is flag b acked = .ok (b', acked') ∧ Ring b' lo hi ∧
      Marks b b' acked' ∧ (∀ blk ∈ acked, blk ∈ acked') ∧
      ∀ blk ∈ acked', blk ∈ acked ∨ flag = false ∧
        ∃ pre i post, is = pre ++ i :: post ∧ Reaches b ack pre i blk := by
  induction is generalizing b flag acked with
  | nil =>
    refine ⟨b, acked, rfl, h, ⟨rfl, rfl, rfl, rfl, fun j => Or.inl rfl⟩, fun _ => id, fun _ => Or.inl⟩
  | cons i is ih =>
    unfold SendBuf.process_bits
    dsimp only
    rw [show slotBefore ack.starting_sequence_number (i + 1) = bitSlot ack i from rfl]
    split_ifs with hstop hbit
    · refine ⟨b, acked, rfl, h, ⟨rfl, rfl, rfl, rfl, fun j => Or.inl rfl⟩, fun _ => id, fun _ => Or.inl⟩
    · -- the bit is set: its slot is given up
      have hflag : flag = false := by
        cases flag with
        | false => rfl
        | true => exact absurd (Or.inl rfl) hstop
      have hhead : bitSlot ack i ≠ b.head := fun heq => hstop (Or.inr heq)
      have hlt : bitSlot ack i < GPRS_SNS := by
        by_contra hge
        have hget : b.get_state (bitSlot ack i) = -1 := if_neg hge
        have hst := hbit.2
        rw [hget] at hst
        exact absurd hst (by decide)
      have hpend : (b.slot (bitSlot ack i)).state = PENDING_ACK := by
        have hst := hbit.2
        rw [get_state_eq hlt] at hst
        exact_mod_cast hst
      have hun : b.unacked (bitSlot ack i) := Or.inl hpend
      obtain ⟨n, -, -, -, hpdu⟩ := h.held _ hun
      have hlen : bitSlot ack i < b.array.length := by
        rw [h.length]
        exact hlt
      have hdel : (b.set_state (bitSlot ack i) ACKED).del (bitSlot ack i) =
          .ok (b.dropped (bitSlot ack i)) := set_state_del h.length hlt hpdu
      rw [hdel, hpdu]
      dsimp only
      obtain ⟨b', acked', heq, hring, hmarks, hgrow, hnew⟩ := ih (h.dropped hlen)
        (bitSlot ack i == b.tail) ([{ user_data_bsn := bitSlot ack i, serial := n }] ++ acked)
      refine ⟨b', acked', heq, hring, ⟨hmarks.head, hmarks.tail, hmarks.vs, hmarks.cur, ?_⟩, ?_, ?_⟩
      · intro j
        have hj := hmarks.slot j
        rw [slot_dropped hlen] at hj
        split_ifs at hj with hji
        · right
          rw [hji]
          refine ⟨hpend, ?_, _, hgrow _ (List.mem_cons_self), hpdu⟩
          rcases hj with hj | ⟨-, hj, -⟩
          · exact hji ▸ hj
          · exact hji ▸ hj
        · exact hj
      · intro blk hblk
        exact hgrow blk (List.mem_cons_of_mem _ hblk)
      · intro blk hblk
        rcases hnew blk hblk with hold | ⟨hfalse, pre, k, post, rfl, hk1, hk2, hk3, hk4, hk5⟩
        · rcases List.mem_cons.1 hold with rfl | hold
          · exact Or.inr ⟨hflag, [], i, is, rfl, hbit.1, hun, hpdu, hhead, by simp⟩
          · exact Or.inl hold
        · rw [unacked_dropped hlen] at hk2
          rw [slot_dropped hlen, if_neg hk2.1] at hk3
          refine Or.inr ⟨hflag, i :: pre, k, post, rfl, hk1, hk2.2, hk3, hk4, ?_⟩
          intro j hj
          rcases List.mem_cons.1 hj with rfl | hj
          · exact ⟨hhead, by simpa using hfalse⟩
          · exact hk5 j hj
    · -- the bit is not set, or its slot does not wait for it
      have hflag : flag = false := by
        cases flag with
        | false => rfl
        | true => exact absurd (Or.inl rfl) hstop
      have hhead : bitSlot ack i ≠ b.head := fun heq => hstop (Or.inr heq)
      obtain ⟨b', acked', heq, hring, hmarks, hgrow, hnew⟩ := ih h (bitSlot ack i == b.tail) acked
      refine ⟨b', acked', heq, hring, hmarks, hgrow, ?_⟩
      intro blk hblk
      rcases hnew blk hblk with hold | ⟨hfalse, pre, k, post, rfl, hk1, hk2, hk3, hk4, hk5⟩
      · exact Or.inl hold
      · refine Or.inr ⟨hflag, i :: pre, k, post, rfl, hk1, hk2, hk3, hk4, ?_⟩
        intro j hj
        rcases List.mem_cons.1 hj with rfl | hj
        · exact ⟨hhead, by simpa using hfalse⟩
        · exact hk5 j hj

/-- The blocks that an acknowledgement marks, and the ring without them. -/
theorem Ring.process_ack (h : Ring b lo hi) (ht : Trimmed b lo hi) (ack : AckNack) :
    ∃ b' acked lo', b.process_ack ack = .ok (b'.forward_tail, acked) ∧ Ring b' lo hi ∧
      Marks b b' acked ∧
      (∀ blk ∈ acked, ∃ pre i post, List.range GPRS_WS = pre ++ i :: post ∧
        Reaches b ack pre i blk) ∧
      lo ≤ lo' ∧ Ring b'.forward_tail lo' hi ∧ Trimmed b'.forward_tail lo' hi ∧
      (∀ n, lo ≤ n → n < lo' → ¬ b'.unacked (n % GPRS_SNS)) ∧
      ((b'.scan b'.scanned b'.tail false).2.1 = true →
        ∃ n, lo ≤ n ∧ n ≤ lo' ∧ b'.vs = n % GPRS_SNS) := by
  obtain ⟨b', acked, heq, hring, hmarks, -, hnew⟩ :=
    Ring.process_bits ack (List.range GPRS_WS) h false []
  have hreach : ∀ blk ∈ acked, ∃ pre i post, List.range GPRS_WS = pre ++ i :: post ∧
      Reaches b ack pre i blk := by
    intro blk hblk
    rcases hnew blk hblk with hnil | ⟨-, hr⟩
    · exact absurd hnil List.not_mem_nil
    · exact hr
  have hfull : hi = lo + GPRS_SNS → Trimmed b' lo hi := by
    -- the loop stops at the head, where a full ring has its oldest block
    intro hroom hlt
    have hold := ht hlt
    rcases hmarks.slot (lo % GPRS_SNS) with hs | ⟨-, -, blk, hblk, hpdu⟩
    · unfold unacked
      rw [hs]
      exact hold
    · exfalso
      obtain ⟨pre, i, post, -, -, hun, hpdu', hhead, -⟩ := hreach blk hblk
      obtain ⟨n, -, -, -, hn⟩ := h.held _ hold
      obtain ⟨m, -, -, -, hm⟩ := h.held _ hun
      rw [hpdu] at hn
      rw [hpdu', hn] at hm
      apply hhead
      rw [h.head]
      have hslots := congrArg Blk.user_data_bsn (Option.some.inj hm)
      simp only [GPRS_SNS] at *
      omega
  obtain ⟨lo', hlo, hring', htrim, hpast, hmeet⟩ := hring.forward_tail hfull
  refine ⟨b', acked, lo', ?_, hring, hmarks, hreach, hlo, hring', htrim, hpast, hmeet⟩
  unfold SendBuf.process_ack
  rw [heq]

end SendBuf

end Gprs
