import Nctuns.Dvb.RcstQueue

/-!
# Proofs about the return link queues

Each operation moves slots between the places that `Accounted` adds up, or takes their cells out of
the buffers; so cells and slots stay in step as long as nothing is cleaned away.
-/

namespace Dvb

open RcstQueue QueueAccount

variable {q : RcstQueue} {n g : Nat}

/-! ### The buffers -/

/-- The buffers hold `cells` cells, and none of them is empty. -/
structure Holds (bs : List AtmBuffer) (cells : Nat) : Prop where
  sum : (bs.map AtmBuffer.atm_cnt).sum = cells
  pos : ∀ b ∈ bs, 0 < b.atm_cnt

theorem Holds.nil : Holds [] 0 := ⟨rfl, by simp⟩

/-- Two lists of buffers one behind the other. -/
theorem Holds.append {bs cs : List AtmBuffer} {m n : Nat} (hb : Holds bs m) (hc : Holds cs n) :
    Holds (bs ++ cs) (m + n) where
  sum := by simp [hb.sum, hc.sum]
  pos b h := (List.mem_append.1 h).elim (hb.pos b) (hc.pos b)

theorem Holds.singleton {b : AtmBuffer} (h : 0 < b.atm_cnt) : Holds [b] b.atm_cnt :=
  ⟨by simp, by simpa using h⟩

/-- The buffers behind the first one. -/
theorem Holds.tail {b : AtmBuffer} {bs : List AtmBuffer} {m : Nat} (h : Holds (b :: bs) m) :
    Holds bs (m - b.atm_cnt) where
  sum := by
    have hs := h.sum
    rw [List.map_cons, List.sum_cons] at hs
    omega
  pos c hc := h.pos c (List.mem_cons_of_mem _ hc)

/-- No buffer has more cells than all of them. -/
theorem Holds.le {b : AtmBuffer} {bs : List AtmBuffer} {m : Nat} (h : Holds (b :: bs) m) :
    b.atm_cnt ≤ m := by
  rw [← h.sum, List.map_cons, List.sum_cons]
  exact Nat.le_add_right _ _

/-- The buffers without the first `k` cells of the first one. -/
theorem Holds.drop {b : AtmBuffer} {bs : List AtmBuffer} {m k : Nat} (h : Holds (b :: bs) m)
    (hk : k < b.atm_cnt) : Holds ({ b with atm_cnt := b.atm_cnt - k } :: bs) (m - k) := by
  have hle := h.le
  rw [show m - k = b.atm_cnt - k + (m - b.atm_cnt) by omega]
  exact (Holds.singleton (b := { b with atm_cnt := b.atm_cnt - k }) (Nat.sub_pos_of_lt hk)).append
    h.tail

/-- Cells that join the last buffer. -/
theorem Holds.grow {tail : AtmBuffer} {bs : List AtmBuffer} {m num : Nat} (h : Holds bs m)
    (htail : bs.getLast? = some tail) :
    Holds (bs.dropLast ++ [{ tail with atm_cnt := tail.atm_cnt + num }]) (m + num) := by
  obtain ⟨init, rfl⟩ := List.getLast?_eq_some_iff.1 htail
  have hsum := h.sum
  have hpos := h.pos tail (by simp)
  rw [List.dropLast_concat]
  refine ⟨?_, fun b hb => ?_⟩
  · simp only [List.map_append, List.map_cons, List.map_nil, List.sum_append, List.sum_cons,
      List.sum_nil] at hsum ⊢
    omega
  · rcases List.mem_append.1 hb with hb | hb
    · exact h.pos b (List.mem_append_left _ hb)
    · rw [List.mem_singleton.1 hb]
      exact Nat.lt_of_lt_of_le hpos (Nat.le_add_right _ _)

/-- As many cells leave as are asked for. -/
theorem dropBuffers_spec {bs : List AtmBuffer} {m : Nat} (h : Holds bs m) (remain : UInt32)
    (hr : remain.toNat ≤ m) (hm : m < 2 ^ 32) :
    (dropBuffers bs remain).2 = 0 ∧ Holds (dropBuffers bs remain).1 (m - remain.toNat) := by
  induction bs generalizing m remain with
  | nil =>
    have hm0 : m = 0 := by simpa using h.sum.symm
    have hr0 : remain = 0 := UInt32.toNat_inj.1 (by simp; omega)
    subst hm0 hr0
    exact ⟨rfl, h⟩
  | cons b bs ih =>
    unfold dropBuffers
    have hle := h.le
    have hb : (UInt32.ofNat b.atm_cnt).toNat = b.atm_cnt := UInt32.toNat_ofNat_of_lt' (by
      show b.atm_cnt < 2 ^ 32
      omega)
    by_cases h0 : remain > 0
    · rw [if_pos h0]
      by_cases hbr : UInt32.ofNat b.atm_cnt ≤ remain
      · have hbr' : b.atm_cnt ≤ remain.toNat := by
          rwa [UInt32.le_iff_toNat_le, hb] at hbr
        have hsub : (remain - UInt32.ofNat b.atm_cnt).toNat = remain.toNat - b.atm_cnt := by
          rw [UInt32.toNat_sub_of_le _ _ hbr, hb]
        rw [if_pos hbr]
        obtain ⟨hz, hh⟩ := ih h.tail (remain - UInt32.ofNat b.atm_cnt) (by rw [hsub]; omega) (by omega)
        refine ⟨hz, ?_⟩
        rw [hsub] at hh
        rwa [show m - remain.toNat = m - b.atm_cnt - (remain.toNat - b.atm_cnt) by omega]
      · rw [if_neg hbr]
        rw [UInt32.le_iff_toNat_le, hb, Nat.not_le] at hbr
        exact ⟨rfl, h.drop hbr⟩
    · rw [if_neg h0]
      have hr0 : remain = 0 := by
        rw [gt_iff_lt, UInt32.lt_iff_toNat_lt, Nat.not_lt] at h0
        exact UInt32.toNat_inj.1 (by simpa using h0)
      subst hr0
      exact ⟨rfl, h⟩

/-! ### Cells and slots -/

/-- `n` slots are not in `_next_demand_cell` any more, and the buffers hold all the cells. -/
structure Accounted (q : RcstQueue) (n : Nat) : Prop where
  account : q._queue_len.toNat =
    q._next_demand_cell.toNat + q._atm_cell_per_slot.toNat * n
  divided : q._atm_cell_per_slot = 0 → n = 0
  not_wrapped : q.wrapped = false
  holds : Holds q._buffers q._queue_len.toNat

namespace Accounted

/-- The account only looks at five of the fields. -/
theorem congr {q' : RcstQueue} {n' : Nat} (h : Accounted q n) (hn : n' = n)
    (hl : q'._queue_len = q._queue_len) (hd : q'._next_demand_cell = q._next_demand_cell)
    (ha : q'._atm_cell_per_slot = q._atm_cell_per_slot) (hw : q'.wrapped = q.wrapped)
    (hb : q'._buffers = q._buffers) : Accounted q' n' where
  account := by rw [hn, hl, hd, ha]; exact h.account
  divided := by rw [hn, ha]; exact h.divided
  not_wrapped := by rw [hw]; exact h.not_wrapped
  holds := by rw [hb, hl]; exact h.holds

/-- No more slots are accounted for than there are cells. -/
theorem slots_le (h : Accounted q n) : n ≤ q._queue_len.toNat := by
  by_cases h0 : q._atm_cell_per_slot = 0
  · rw [h.divided h0]; exact Nat.zero_le _
  · have hpos : 0 < q._atm_cell_per_slot.toNat :=
      Nat.pos_of_ne_zero fun h' => h0 (UInt32.toNat_inj.1 h')
    have hmul := Nat.le_mul_of_pos_left n hpos
    have hacc := h.account
    omega

theorem slots_lt (h : Accounted q n) : n < 2 ^ 32 :=
  Nat.lt_of_le_of_lt h.slots_le q._queue_len.toNat_lt

/-- The cells of slots outside `_next_demand_cell`. -/
theorem mul_slots {x : UInt32} (h : Accounted q (n + x.toNat)) :
    (x * q._atm_cell_per_slot).toNat = q._atm_cell_per_slot.toNat * x.toNat ∧
      q._next_demand_cell.toNat + q._atm_cell_per_slot.toNat * n +
        q._atm_cell_per_slot.toNat * x.toNat = q._queue_len.toNat := by
  have hacc := h.account
  have hlt := q._queue_len.toNat_lt
  rw [Nat.mul_add] at hacc
  refine ⟨?_, by omega⟩
  rw [UInt32.toNat_mul, Nat.mul_comm x.toNat]
  exact Nat.mod_eq_of_lt (by omega)

/-- New cells are cells that are not requested yet. -/
theorem arrive {num : Nat} {bs : List AtmBuffer} (h : Accounted q n)
    (hlt : q._queue_len.toNat + num < 2 ^ 32) (hbs : Holds bs (q._queue_len.toNat + num)) :
    Accounted { q with
      _queue_len := q._queue_len + UInt32.ofNat num
      _next_demand_cell := q._next_demand_cell + UInt32.ofNat num
      _buffers := bs } n := by
  have hacc := h.account
  have hnum : (UInt32.ofNat num).toNat = num := UInt32.toNat_ofNat_of_lt' (by
    show num < 2 ^ 32
    omega)
  have hlen : (q._queue_len + UInt32.ofNat num).toNat = q._queue_len.toNat + num := by
    rw [UInt32.toNat_add, hnum, Nat.mod_eq_of_lt hlt]
  have hnext : (q._next_demand_cell + UInt32.ofNat num).toNat = q._next_demand_cell.toNat + num := by
    rw [UInt32.toNat_add, hnum, Nat.mod_eq_of_lt (by omega)]
  refine ⟨?_, h.divided, h.not_wrapped, ?_⟩
  · show (q._queue_len + UInt32.ofNat num).toNat =
      (q._next_demand_cell + UInt32.ofNat num).toNat + q._atm_cell_per_slot.toNat * n
    omega
  · show Holds bs (q._queue_len + UInt32.ofNat num).toNat
    rwa [hlen]

/-- Cells that are asked for move to the account. -/
theorem takeDemand {x : UInt32} (h : Accounted q n) (hx : x ≤ q._next_demand_slot) :
    Accounted (q.takeDemand x) (n + x.toNat) := by
  have hx' : x.toNat ≤ q._next_demand_cell.toNat / q._atm_cell_per_slot.toNat := by
    rw [UInt32.le_iff_toNat_le] at hx
    rwa [← UInt32.toNat_div]
  have hle : q._atm_cell_per_slot.toNat * x.toNat ≤ q._next_demand_cell.toNat :=
    Nat.le_trans (Nat.mul_le_mul_left _ hx') (Nat.mul_div_le _ _)
  have hlt := q._next_demand_cell.toNat_lt
  have hmul : (x * q._atm_cell_per_slot).toNat = q._atm_cell_per_slot.toNat * x.toNat := by
    rw [UInt32.toNat_mul, Nat.mul_comm x.toNat]
    exact Nat.mod_eq_of_lt (by omega)
  have hcell : x * q._atm_cell_per_slot ≤ q._next_demand_cell := by
    rwa [UInt32.le_iff_toNat_le, hmul]
  have hacc := h.account
  constructor
  · show q._queue_len.toNat = (q._next_demand_cell - x * q._atm_cell_per_slot).toNat + _ * (n + x.toNat)
    rw [UInt32.toNat_sub_of_le _ _ hcell, hmul, Nat.mul_add]
    show _ = _ + (q._atm_cell_per_slot.toNat * n + q._atm_cell_per_slot.toNat * x.toNat)
    omega
  · intro h0
    have h0' : q._atm_cell_per_slot.toNat = 0 := by rw [show q._atm_cell_per_slot = 0 from h0]; rfl
    rw [h0', Nat.div_zero] at hx'
    rw [h.divided h0]
    omega
  · show (q.wrapped || decide (q._next_demand_cell < x * q._atm_cell_per_slot)) = false
    rw [h.not_wrapped, Bool.false_or, decide_eq_false (UInt32.not_lt.2 hcell)]
  · exact h.holds

/-- Cells that are not granted move back. -/
theorem returnDemand {x : UInt32} (h : Accounted q (n + x.toNat)) :
    Accounted (q.returnDemand x) n := by
  obtain ⟨hmul, hacc⟩ := h.mul_slots
  have hlt := q._queue_len.toNat_lt
  refine ⟨?_, fun h0 => ?_, h.not_wrapped, h.holds⟩
  · show q._queue_len.toNat = (q._next_demand_cell + x * q._atm_cell_per_slot).toNat + _
    rw [UInt32.toNat_add, hmul, Nat.mod_eq_of_lt (by omega)]
    show _ = _ + q._atm_cell_per_slot.toNat * n
    omega
  · have := h.divided h0
    omega

/-- Dropping the cells of slots that are not granted takes them out of the account. -/
theorem drop_head {x : UInt32} (h : Accounted q (n + x.toNat)) :
    ∃ bs, q._drop_head (x * q._atm_cell_per_slot) = .ok { q with
        _buffers := bs, _queue_len := q._queue_len - x * q._atm_cell_per_slot } ∧
      Accounted { q with
        _buffers := bs, _queue_len := q._queue_len - x * q._atm_cell_per_slot } n := by
  obtain ⟨hmul, hacc⟩ := h.mul_slots
  have hle : x * q._atm_cell_per_slot ≤ q._queue_len := by
    rw [UInt32.le_iff_toNat_le, hmul]
    omega
  obtain ⟨hz, hh⟩ := dropBuffers_spec h.holds (x * q._atm_cell_per_slot)
    (UInt32.le_iff_toNat_le.1 hle) q._queue_len.toNat_lt
  refine ⟨(dropBuffers q._buffers (x * q._atm_cell_per_slot)).1, ?_, ?_, ?_, h.not_wrapped, ?_⟩
  · unfold _drop_head
    rw [if_neg (by rw [hz]; simp)]
  · show (q._queue_len - x * q._atm_cell_per_slot).toNat = _
    rw [UInt32.toNat_sub_of_le _ _ hle, hmul]
    show _ = q._next_demand_cell.toNat + q._atm_cell_per_slot.toNat * n
    omega
  · intro h0
    have := h.divided h0
    omega
  · show Holds _ (q._queue_len - x * q._atm_cell_per_slot).toNat
    rwa [UInt32.toNat_sub_of_le _ _ hle]

end Accounted

/-! ### Operations -/

/-- A queue stops only at an assertion or at a division, and otherwise has a result with `P`. -/
def Yields {α : Type} (P : α → Prop) : Except QueueAbort α → Prop
  | .ok a => P a
  | .error e => e = .assertion ∨ e = .division

/-- A call returns, or an assertion or a division fails. -/
theorem Yields.cases {α : Type} {P : α → Prop} {r : Except QueueAbort α} (h : Yields P r) :
    (∃ a, r = .ok a ∧ P a) ∨ r = .error .assertion ∨ r = .error .division := by
  cases r with
  | ok a => exact .inl ⟨a, rfl, h⟩
  | error e => exact .inr (h.imp (congrArg _) (congrArg _))

/-- Behind an assertion. -/
theorem Yields.assert {α : Type} {P : α → Prop} {c : Prop} [Decidable c] {r : Except QueueAbort α}
    (h : ¬ c → Yields P r) : Yields P (if c then .error .assertion else r) := by
  split
  · exact .inl rfl
  · exact h ‹_›

/-- Behind a division. -/
theorem Yields.divide {α : Type} {P : α → Prop} {c : Prop} [Decidable c] {r : Except QueueAbort α}
    (h : Yields P r) : Yields P (if c then .error .division else r) := by
  split
  · exact .inr rfl
  · exact h

/-- All cells of the queue are accounted for when `g` slots are granted. -/
structure Settled (q : RcstQueue) (g : Nat) (demands : List PktDemand) : Prop where
  demand : q._demand = some demands
  accounted : Accounted q
    (slots demands + slots q._cra_demand + q._requested_before_msl.toNat + g)

@[simp] theorem slots_nil : slots [] = 0 := rfl

@[simp] theorem slots_cons (d : PktDemand) (l : List PktDemand) :
    slots (d :: l) = d.require_slot.toNat + slots l := rfl

/-- One demand more. -/
@[simp] theorem slots_concat (l : List PktDemand) (frame : FrameIdent) (x : UInt32) :
    slots (l ++ [⟨frame, x⟩]) = slots l + x.toNat := by
  simp [slots]

theorem limit_le (a b : UInt32) : (if a > b then b else a) ≤ a := by
  split
  · exact UInt32.le_of_lt ‹_›
  · exact UInt32.le_refl a

/-- The smaller of two numbers. -/
theorem limit_toNat (a b : UInt32) : (if a > b then b else a).toNat = min a.toNat b.toNat := by
  split
  next h => exact (Nat.min_eq_right (Nat.le_of_lt (UInt32.lt_iff_toNat_lt.1 h))).symm
  next h => exact (Nat.min_eq_left (UInt32.le_iff_toNat_le.1 (UInt32.not_lt.1 h))).symm

variable {demands : List PktDemand}

/-- **Push.** Cells join the queue, or are dropped. -/
theorem push_settled (h : Settled q g demands) {num : Nat} (pos : 0 < num) (now : Bool)
    (frame : FrameIdent)
    (hfit : q._queue_len + UInt32.ofNat num ≤ q._max_queue_len → q._queue_len.toNat + num < 2 ^ 32) :
    Settled (q.push num now frame) g demands := by
  unfold RcstQueue.push
  split
  next hmax =>
    have hlt := hfit hmax
    have hold := h.accounted.holds
    dsimp only
    split
    next hb =>
      rw [List.getLast?_eq_none_iff.1 hb] at hold
      exact ⟨h.demand, h.accounted.arrive hlt (hold.append (Holds.singleton (b := ⟨_, num⟩) pos))⟩
    next tail hb =>
      split
      · exact ⟨h.demand, h.accounted.arrive hlt (hold.grow hb)⟩
      · exact ⟨h.demand, h.accounted.arrive hlt (hold.append (Holds.singleton (b := ⟨_, num⟩) pos))⟩
  next => exact h

/-- What `compute_demand` keeps. -/
abbrev Computes (g : Nat) (r : Except QueueAbort (UInt32 × RcstQueue)) : Prop :=
  Yields (fun a => ∃ demands, Settled a.2 g demands) r

/-- What `grant_demand` keeps: the slots that it returns are granted. -/
abbrev Grants (g : Nat) (r : Except QueueAbort (UInt32 × RcstQueue)) : Prop :=
  Yields (fun a => ∃ demands, Settled a.2 (g + a.1.toNat) demands) r

/-- The demand of a real-time queue. -/
theorem Rt.compute_demand_settled (h : Settled q g demands) (type : RcstQueueDemandType)
    (frame : FrameIdent) : Computes g (Rt.compute_demand q type frame) := by
  unfold Rt.compute_demand
  cases type with
  | QD_RATE => exact ⟨demands, h⟩
  | QD_QUEUE_LEN =>
    rw [h.demand]
    refine Yields.divide (Yields.assert fun _ => ?_)
    refine ⟨_, rfl, (h.accounted.takeDemand (limit_le _ _)).congr ?_ rfl rfl rfl rfl rfl⟩
    show slots (demands ++ [⟨_, _⟩]) + slots q._cra_demand + q._requested_before_msl.toNat + g = _
    rw [slots_concat]
    omega

/-- A grant for a real-time queue. -/
theorem Rt.grant_demand_settled (h : Settled q g demands) (amount : UInt32) (frame : FrameIdent) :
    Grants g (Rt.grant_demand q amount frame) := by
  unfold Rt.grant_demand
  rw [h.demand]
  cases demands with
  | nil => exact ⟨[], h⟩
  | cons head rest =>
    have hacc := h.accounted
    rw [slots_cons] at hacc
    dsimp only
    split
    · exact ⟨head :: rest, h⟩
    split
    · refine Yields.assert fun h0 => ?_
      -- the TBTP is lost: all cells of the demand are dropped
      obtain ⟨bs, hdrop, hleft⟩ := Accounted.drop_head
        (n := slots rest + slots q._cra_demand + q._requested_before_msl.toNat + g)
        (x := head.require_slot) (hacc.congr (by omega) rfl rfl rfl rfl rfl)
      rw [hdrop]
      rw [not_not] at h0
      subst h0
      exact ⟨rest, rfl, hleft.congr rfl rfl rfl rfl rfl rfl⟩
    · refine ⟨rest, rfl, hacc.congr ?_ rfl rfl rfl rfl rfl⟩
      show slots rest + slots q._cra_demand + q._requested_before_msl.toNat +
        (g + head.require_slot.toNat) = _
      omega

/-- A request is never larger than `_next_demand_slot`. -/
theorem rbdcRequire_spec (q : RcstQueue) (amount : UInt32) :
    Yields (fun a => a.1 ≤ q._next_demand_slot ∧ ∃ last timer,
      a.2 = { q with _last_rbdc := last, _rbdc_timer := timer }) (q.rbdcRequire amount) := by
  unfold rbdcRequire
  split
  · have hle := limit_le q._next_demand_slot (q._ncc_config.bps_to_spf q._max_rbdc_rate)
    exact Yields.assert fun _ => ⟨hle, _, _, rfl⟩
  · exact ⟨limit_le _ _, _, _, rfl⟩

/-- A demand by rate. -/
theorem rbdcDemand_settled (h : Settled q g demands) (amount : UInt32) (frame : FrameIdent)
    (msl : UInt32) : Computes g (q.rbdcDemand amount frame msl) := by
  have hreq := rbdcRequire_spec q amount
  unfold rbdcDemand
  dsimp only
  generalize (if msl > 0 then _ else _) = target
  cases hr : q.rbdcRequire amount with
  | error e => rw [hr] at hreq; exact hreq
  | ok a =>
    rw [hr] at hreq
    obtain ⟨require, q'⟩ := a
    obtain ⟨hle, last, timer, rfl⟩ := hreq
    have htake := h.accounted.takeDemand hle
    dsimp only [RcstQueue.takeDemand]
    rw [h.demand]
    dsimp only
    refine Yields.assert fun _ => ?_
    by_cases h0 : require > 0
    · rw [if_pos h0]
      refine ⟨_, rfl, htake.congr ?_ rfl rfl rfl rfl rfl⟩
      show slots (demands ++ [⟨_, _⟩]) + slots q._cra_demand + q._requested_before_msl.toNat + g = _
      rw [slots_concat]
      show slots demands + require.toNat + _ + _ + g = _ + require.toNat
      omega
    · rw [if_neg h0]
      -- a request of no slots is not recorded
      have hzero : require.toNat = 0 := by
        rw [gt_iff_lt, UInt32.lt_iff_toNat_lt] at h0
        exact Nat.eq_zero_of_not_pos h0
      refine ⟨demands, rfl, htake.congr ?_ rfl rfl rfl rfl rfl⟩
      rw [hzero]
      rfl

/-- The demand of a queue with variable rate and jitter. -/
theorem Vrjt.compute_demand_settled (h : Settled q g demands) (type : RcstQueueDemandType)
    (amount : UInt32) (frame : FrameIdent) (msl : UInt32) :
    Computes g (Vrjt.compute_demand q type amount frame msl) := by
  unfold Vrjt.compute_demand
  cases type with
  | QD_QUEUE_LEN => exact ⟨demands, h⟩
  | QD_RATE =>
    exact Yields.divide (rbdcDemand_settled h amount frame msl)

/-- The demand of a real-time queue with variable rate. -/
theorem Vrrt.compute_demand_settled (h : Settled q g demands) (type : RcstQueueDemandType)
    (amount : UInt32) (frame : FrameIdent) (msl : UInt32) :
    Computes g (Vrrt.compute_demand q type amount frame msl) := by
  unfold Vrrt.compute_demand
  cases type with
  | QD_QUEUE_LEN => exact ⟨demands, h⟩
  | QD_RATE =>
    refine Yields.divide (Yields.assert fun _ => ?_)
    have htake := h.accounted.takeDemand (limit_le _ (q._ncc_config.bps_to_spf q._cra_rate))
    suffices hs : Settled _ g demands from rbdcDemand_settled hs amount frame msl
    refine ⟨h.demand, htake.congr ?_ rfl rfl rfl rfl rfl⟩
    show slots demands + slots (q._cra_demand ++ [⟨_, _⟩]) + q._requested_before_msl.toNat + g = _
    rw [slots_concat]
    omega

/-- A grant for a queue with variable rate and jitter. -/
theorem Vrjt.grant_demand_settled (h : Settled q g demands) (amount : UInt32) (frame : FrameIdent) :
    Grants g (Vrjt.grant_demand q amount frame) := by
  unfold Vrjt.grant_demand
  rw [h.demand]
  cases demands with
  | nil => exact ⟨[], h⟩
  | cons head rest =>
    have hacc := h.accounted
    rw [slots_cons] at hacc
    dsimp only
    split
    · exact ⟨head :: rest, h⟩
    by_cases hmore : head.require_slot > amount
    · -- what is not granted goes back to `_next_demand_cell`
      have hsub : (head.require_slot - amount).toNat = head.require_slot.toNat - amount.toNat :=
        UInt32.toNat_sub_of_le _ _ (UInt32.le_of_lt hmore)
      have hlt := UInt32.lt_iff_toNat_lt.1 hmore
      simp only [if_pos hmore]
      refine ⟨rest, rfl, (Accounted.returnDemand (x := head.require_slot - amount)
        (hacc.congr ?_ rfl rfl rfl rfl rfl)).congr rfl rfl rfl rfl rfl rfl⟩
      show slots rest + slots q._cra_demand + q._requested_before_msl.toNat + (g + amount.toNat) +
        (head.require_slot - amount).toNat = _
      omega
    · simp only [if_neg hmore]
      refine ⟨rest, rfl, hacc.congr ?_ rfl rfl rfl rfl rfl⟩
      show slots rest + slots q._cra_demand + q._requested_before_msl.toNat +
        (g + head.require_slot.toNat) = _
      omega

/-- What `Rcst_queue_vrrt::grant_demand` does to the queue before it drops the demand. -/
theorem drop_insufficience (head : PktDemand) (amount : UInt32)
    (h : Accounted q (n + head.require_slot.toNat)) :
    ∃ q', (if head.require_slot > amount then
        q._drop_head ((head.require_slot - amount) * q._atm_cell_per_slot) else .ok q) = .ok q' ∧
      q'._demand = q._demand ∧ q'._cra_demand = q._cra_demand ∧
      q'._requested_before_msl = q._requested_before_msl ∧
      Accounted q' (n + (if head.require_slot > amount then amount else head.require_slot).toNat) := by
  by_cases hmore : head.require_slot > amount
  · have hsub : (head.require_slot - amount).toNat = head.require_slot.toNat - amount.toNat :=
      UInt32.toNat_sub_of_le _ _ (UInt32.le_of_lt hmore)
    have hlt := UInt32.lt_iff_toNat_lt.1 hmore
    obtain ⟨bs, hdrop, hleft⟩ := Accounted.drop_head (n := n + amount.toNat)
      (x := head.require_slot - amount) (h.congr (by omega) rfl rfl rfl rfl rfl)
    rw [if_pos hmore, if_pos hmore]
    exact ⟨_, hdrop, rfl, rfl, rfl, hleft⟩
  · rw [if_neg hmore, if_neg hmore]
    exact ⟨q, rfl, rfl, rfl, rfl, h⟩

/-- A grant for a real-time queue with variable rate. -/
theorem Vrrt.grant_demand_settled (h : Settled q g demands) (cra : Bool) (amount : UInt32)
    (frame : FrameIdent) : Grants g (Vrrt.grant_demand q cra amount frame) := by
  unfold Vrrt.grant_demand
  have hacc := h.accounted
  cases cra with
  | true =>
    rw [if_pos rfl]
    cases hl : q._cra_demand with
    | nil => exact ⟨demands, h⟩
    | cons head rest =>
      rw [hl, slots_cons] at hacc
      dsimp only
      split
      · exact ⟨demands, h⟩
      obtain ⟨q', hq', hd, hc, hr, hleft⟩ := drop_insufficience head amount
        (n := slots demands + slots rest + q._requested_before_msl.toNat + g)
        (hacc.congr (by omega) rfl rfl rfl rfl rfl)
      rw [hq']
      refine ⟨demands, hd.trans h.demand, hleft.congr ?_ rfl rfl rfl rfl rfl⟩
      show slots demands + slots rest + q'._requested_before_msl.toNat +
        (g + (if head.require_slot > amount then amount else head.require_slot).toNat) = _
      rw [hr]
      omega
  | false =>
    rw [if_neg Bool.false_ne_true, h.demand]
    cases demands with
    | nil => exact ⟨[], h⟩
    | cons head rest =>
      rw [slots_cons] at hacc
      dsimp only
      split
      · exact ⟨head :: rest, h⟩
      obtain ⟨q', hq', hd, hc, hr, hleft⟩ := drop_insufficience head amount
        (n := slots rest + slots q._cra_demand + q._requested_before_msl.toNat + g)
        (hacc.congr (by omega) rfl rfl rfl rfl rfl)
      rw [hq']
      refine ⟨rest, rfl, hleft.congr ?_ rfl rfl rfl rfl rfl⟩
      show slots rest + slots q'._cra_demand + q'._requested_before_msl.toNat +
        (g + (if head.require_slot > amount then amount else head.require_slot).toNat) = _
      rw [hr, hc]
      omega

/-- The demand of a queue with jitter. -/
theorem Jt.compute_demand_settled (h : Settled q g demands) (type : RcstQueueDemandType)
    (available : UInt32) (frame : FrameIdent) (msl : UInt32) (lost : Bool) :
    Computes g (Jt.compute_demand q type available frame msl lost) := by
  unfold Jt.compute_demand
  refine Yields.assert fun _ => ?_
  cases type with
  | QD_RATE => exact ⟨demands, h⟩
  | QD_QUEUE_LEN =>
    refine Yields.divide ?_
    -- a lost request is a request not made
    have hlost : ∃ q', (if lost then
        { q.returnDemand q._requested_before_msl with _requested_before_msl := 0 } else q) = q' ∧
        Settled q' g demands := by
      cases lost with
      | false => exact ⟨q, rfl, h⟩
      | true =>
        refine ⟨_, rfl, h.demand, (Accounted.returnDemand (x := q._requested_before_msl)
          (h.accounted.congr ?_ rfl rfl rfl rfl rfl)).congr rfl rfl rfl rfl rfl rfl⟩
        show slots demands + slots q._cra_demand + 0 + g + q._requested_before_msl.toNat = _
        omega
    obtain ⟨q', hq', h'⟩ := hlost
    dsimp only
    rw [hq']
    have hle := limit_le q'._next_demand_slot available
    generalize (if q'._next_demand_slot > available then available else q'._next_demand_slot) =
      request at hle ⊢
    have htake := h'.accounted.takeDemand hle
    by_cases h0 : request > 0
    · rw [if_pos h0, h'.demand]
      refine Yields.assert fun _ => ⟨_, rfl, htake.congr ?_ rfl rfl rfl rfl rfl⟩
      show slots (demands ++ [⟨_, _⟩]) + slots q'._cra_demand + q'._requested_before_msl.toNat + g = _
      rw [slots_concat]
      omega
    · rw [if_neg h0]
      have hzero : request.toNat = 0 := by
        rw [gt_iff_lt, UInt32.lt_iff_toNat_lt] at h0
        exact Nat.eq_zero_of_not_pos h0
      refine ⟨demands, h'.demand, htake.congr ?_ rfl rfl rfl rfl rfl⟩
      rw [hzero]
      rfl

/-- What the young demands are granted is taken off what remains. -/
theorem grantYoung_spec (l : List PktDemand) (remain : UInt32) :
    (grantYoung l remain).2 ≤ remain ∧
      slots l + (grantYoung l remain).2.toNat = slots (grantYoung l remain).1 + remain.toNat := by
  induction l generalizing remain with
  | nil => exact ⟨UInt32.le_refl _, rfl⟩
  | cons d ds ih =>
    unfold grantYoung
    by_cases h0 : remain > 0
    · rw [if_pos h0]
      by_cases hd : remain ≥ d.require_slot
      · rw [if_pos hd, slots_cons]
        obtain ⟨hle, heq⟩ := ih (remain - d.require_slot)
        rw [UInt32.le_iff_toNat_le] at hle
        rw [UInt32.toNat_sub_of_le _ _ hd] at hle heq
        have hd' := UInt32.le_iff_toNat_le.1 hd
        refine ⟨UInt32.le_iff_toNat_le.2 (by omega), by omega⟩
      · rw [if_neg hd, slots_cons, slots_cons]
        have hlt := UInt32.not_le.1 hd
        refine ⟨UInt32.le_of_lt h0, ?_⟩
        show _ + 0 = (d.require_slot - remain).toNat + _ + _
        rw [UInt32.toNat_sub_of_le _ _ (UInt32.le_of_lt hlt)]
        have := UInt32.lt_iff_toNat_lt.1 hlt
        omega
    · rw [if_neg h0]
      exact ⟨UInt32.le_refl _, rfl⟩

/-- Demands that are too old are asked for again. -/
theorem Jt.update_demand_list_settled (h : Settled q g demands) (frame : FrameIdent) :
    Yields (fun q' => ∃ demands, Settled q' g demands) (Jt.update_demand_list q frame) := by
  unfold Jt.update_demand_list
  rw [h.demand]
  cases demands with
  | nil => exact ⟨[], h⟩
  | cons head rest =>
    dsimp only
    split
    · have hacc := h.accounted
      have hlt := hacc.slots_lt
      rw [slots_cons] at hacc hlt
      refine ⟨rest, rfl, hacc.congr ?_ rfl rfl rfl rfl rfl⟩
      show slots rest + slots q._cra_demand +
        (q._requested_before_msl + head.require_slot).toNat + g = _
      rw [UInt32.toNat_add, Nat.mod_eq_of_lt (by omega)]
      omega
    · exact ⟨head :: rest, h⟩

/-- A grant goes to the demands of the list. -/
theorem Jt.grantDemands_settled {amount remain : UInt32} (hd : q._demand = some demands)
    (hle : remain ≤ amount) (h : Accounted q (slots demands + slots q._cra_demand +
      q._requested_before_msl.toNat + g + (amount.toNat - remain.toNat))) :
    Grants g (Jt.grantDemands q amount remain) := by
  unfold Jt.grantDemands
  rw [hd]
  obtain ⟨hyoung, hsum⟩ := grantYoung_spec demands remain
  refine ⟨_, rfl, h.congr ?_ rfl rfl rfl rfl rfl⟩
  show slots (grantYoung demands remain).1 + slots q._cra_demand + q._requested_before_msl.toNat +
    (g + (amount - (grantYoung demands remain).2).toNat) = _
  rw [UInt32.le_iff_toNat_le] at hle
  rw [UInt32.toNat_sub_of_le _ _ (UInt32.le_trans hyoung (UInt32.le_iff_toNat_le.2 hle))]
  rw [UInt32.le_iff_toNat_le] at hyoung
  omega

/-- A grant for a queue with jitter. -/
theorem Jt.grant_demand_settled (h : Settled q g demands) (amount : UInt32) :
    Grants g (Jt.grant_demand q amount) := by
  unfold Jt.grant_demand
  refine Yields.assert fun _ => Yields.divide ?_
  -- slots of old requests
  have hold := limit_toNat q._requested_before_msl amount
  generalize (if q._requested_before_msl > amount then amount else q._requested_before_msl) = old
    at hold ⊢
  have holdReq : old ≤ q._requested_before_msl := UInt32.le_iff_toNat_le.2 (by omega)
  have hreq : (q._requested_before_msl - old).toNat = q._requested_before_msl.toNat - old.toNat :=
    UInt32.toNat_sub_of_le _ _ holdReq
  have hrem : (amount - old).toNat = amount.toNat - old.toNat :=
    UInt32.toNat_sub_of_le _ _ (UInt32.le_iff_toNat_le.2 (by omega))
  -- slots of cells not requested yet
  have hnew := limit_toNat (amount - old) q._next_demand_slot
  show Grants g (Jt.grantDemands (RcstQueue.takeDemand
    { q with _requested_before_msl := q._requested_before_msl - old }
    (if amount - old > q._next_demand_slot then q._next_demand_slot else amount - old)) amount
    (amount - old - (if amount - old > q._next_demand_slot then q._next_demand_slot
      else amount - old)))
  generalize (if amount - old > q._next_demand_slot then q._next_demand_slot else amount - old) = new
    at hnew ⊢
  have htake := h.accounted.takeDemand (x := new) (UInt32.le_iff_toNat_le.2 (by omega))
  have hrem' : (amount - old - new).toNat = amount.toNat - old.toNat - new.toNat := by
    rw [UInt32.toNat_sub_of_le _ _ (UInt32.le_iff_toNat_le.2 (by omega)), hrem]
  suffices hacc : Accounted _ (slots demands + slots q._cra_demand +
      (q._requested_before_msl - old).toNat + g + (amount.toNat - (amount - old - new).toNat)) from
    Jt.grantDemands_settled h.demand (UInt32.le_iff_toNat_le.2 (by omega)) hacc
  refine htake.congr ?_ rfl rfl rfl rfl rfl
  show slots demands + slots q._cra_demand + (q._requested_before_msl - old).toNat + g +
    (amount.toNat - (amount - old - new).toNat) = _
  omega

/-- **Demand**, of every kind of queue. -/
theorem compute_demand_settled (h : Settled q g demands) (type : RcstQueueDemandType)
    (amount : UInt32) (frame : FrameIdent) (msl : UInt32) (lost : Bool) :
    Computes g (q.compute_demand type amount frame msl lost) := by
  unfold RcstQueue.compute_demand
  cases q._queue_type with
  | RT => exact Rt.compute_demand_settled h type frame
  | VR_RT => exact Vrrt.compute_demand_settled h type amount frame msl
  | VR_JT => exact Vrjt.compute_demand_settled h type amount frame msl
  | JT => exact Jt.compute_demand_settled h type amount frame msl lost

/-- **Grant**, for every kind of queue. -/
theorem grant_demand_settled (h : Settled q g demands) (cra : Bool) (amount : UInt32)
    (frame : FrameIdent) : Grants g (q.grant_demand cra amount frame) := by
  unfold RcstQueue.grant_demand
  cases q._queue_type with
  | RT => exact Rt.grant_demand_settled h amount frame
  | VR_RT => exact Vrrt.grant_demand_settled h cra amount frame
  | VR_JT => exact Vrjt.grant_demand_settled h amount frame
  | JT => exact Jt.grant_demand_settled h amount

/-- Cells leave from the head of the queue. -/
theorem shiftCells_spec (k : Nat) (hk : k ≤ q._queue_len.toNat)
    (h : Holds q._buffers q._queue_len.toNat) :
    ∃ bs len, q.shiftCells k = .ok { q with _buffers := bs, _queue_len := len } ∧
      len.toNat = q._queue_len.toNat - k ∧ Holds bs len.toNat := by
  induction k generalizing q with
  | zero => exact ⟨q._buffers, q._queue_len, rfl, rfl, h⟩
  | succ k ih =>
    unfold RcstQueue.shiftCells
    have hne : q._queue_len ≠ 0 := by
      intro h0
      simp [h0] at hk
    cases hb : q._buffers with
    | nil =>
      rw [hb] at h
      exact absurd (UInt32.toNat_inj.1 h.sum.symm) hne
    | cons b bs =>
      rw [hb] at h
      have hpos := h.pos b (List.mem_cons_self ..)
      have hlen : (q._queue_len - 1).toNat = q._queue_len.toNat - 1 :=
        UInt32.toNat_sub_of_le _ _ (UInt32.le_iff_toNat_le.2 (by show 1 ≤ _; omega))
      have hleft : Holds (if b.atm_cnt - 1 = 0 then bs else { b with atm_cnt := b.atm_cnt - 1 } :: bs)
          (q._queue_len - 1).toNat := by
        rw [hlen]
        split
        next h1 =>
          have htail := h.tail
          rwa [show b.atm_cnt = 1 by omega] at htail
        next h1 => exact h.drop (by omega)
      have hshift : q.shift = .ok (true, { q with
          _queue_len := q._queue_len - 1
          _buffers := if b.atm_cnt - 1 = 0 then bs
            else { b with atm_cnt := b.atm_cnt - 1 } :: bs }) := by
        unfold RcstQueue.shift
        rw [if_neg hne, hb]
        exact if_neg (Nat.ne_of_gt hpos)
      rw [hshift]
      obtain ⟨bs', len, hrun, hlen', hh⟩ := ih (q := { q with
        _queue_len := q._queue_len - 1
        _buffers := if b.atm_cnt - 1 = 0 then bs
          else { b with atm_cnt := b.atm_cnt - 1 } :: bs }) (by show k ≤ (q._queue_len - 1).toNat; omega)
        hleft
      refine ⟨bs', len, hrun, ?_, hh⟩
      rw [hlen']
      show (q._queue_len - 1).toNat - k = _
      omega

/-- A granted slot finds its cells in the queue. -/
theorem shiftSlot_settled (h : Settled q (g + 1) demands) :
    Yields (fun q' => ∃ demands, Settled q' g demands) q.shiftSlot := by
  have hacc := h.accounted.account
  rw [← Nat.add_assoc, Nat.mul_add, Nat.mul_one] at hacc
  have hle : q._atm_cell_per_slot ≤ q._queue_len := UInt32.le_iff_toNat_le.2 (by omega)
  obtain ⟨bs, len, hrun, hlen, hh⟩ :=
    shiftCells_spec _ (UInt32.le_iff_toNat_le.1 hle) h.accounted.holds
  unfold RcstQueue.shiftSlot
  rw [if_neg (not_not.2 hle), hrun]
  refine ⟨demands, h.demand, ?_, fun h0 => ?_, h.accounted.not_wrapped, hh⟩
  · show len.toNat = q._next_demand_cell.toNat + q._atm_cell_per_slot.toNat *
      (slots demands + slots q._cra_demand + q._requested_before_msl.toNat + g)
    omega
  · have := h.accounted.divided h0
    omega

/-! ### Runs -/

namespace QueueAccount

/-- The queue and the grants agree on the demands that are open. -/
def Sound (s : QueueAccount) : Prop := ∃ demands, Settled s.queue s.granted demands

/-- The invariant gives the balance. -/
theorem Sound.balanced {s : QueueAccount} (h : Sound s) : Balanced s := by
  obtain ⟨demands, h⟩ := h
  exact ⟨⟨demands, h.demand, h.accounted.account⟩, h.accounted.not_wrapped⟩

/-- Nothing has come. -/
theorem init_sound (type : RcstQueueType) (config : NccConfig) (max_queue_len cra_rate max_rbdc_rate
    rbdc_timeout junk : UInt32) (junk_frame : FrameIdent) :
    Sound ⟨init type config max_queue_len cra_rate max_rbdc_rate rbdc_timeout junk junk_frame, 0⟩ :=
  ⟨[], rfl, rfl, fun _ => rfl, rfl, Holds.nil⟩

/-- Every operation keeps the account, cleaning what is not empty and wrapping lengths apart. -/
theorem step_sound {s : QueueAccount} (h : Sound s) (a : QueueAction) (hk : Kept s a) :
    Yields Sound (s.step a) := by
  obtain ⟨demands, h⟩ := h
  cases a with
  | push num pos now frame => exact ⟨demands, push_settled h pos now frame hk⟩
  | compute_demand type amount frame msl lost =>
    unfold QueueAccount.step
    obtain ⟨⟨_, q'⟩, hq, h'⟩ | he | he :=
      Yields.cases (compute_demand_settled h type amount frame msl lost)
    · simp only [hq]; exact h'
    · simp only [he]; exact .inl rfl
    · simp only [he]; exact .inr rfl
  | grant_demand cra amount frame =>
    unfold QueueAccount.step
    obtain ⟨⟨_, q'⟩, hq, h'⟩ | he | he := Yields.cases (grant_demand_settled h cra amount frame)
    · simp only [hq]; exact h'
    · simp only [he]; exact .inl rfl
    · simp only [he]; exact .inr rfl
  | get_next_notice_ctrl_grant_len =>
    exact ⟨demands, h.demand, h.accounted.congr rfl rfl rfl rfl rfl rfl⟩
  | update_demand_list frame =>
    unfold QueueAccount.step
    dsimp only
    split
    · obtain ⟨q', hq, h'⟩ | he | he := Yields.cases (Jt.update_demand_list_settled h frame)
      · simp only [hq]; exact h'
      · simp only [he]; exact .inl rfl
      · simp only [he]; exact .inr rfl
    · exact ⟨demands, h⟩
  | clean_demand =>
    have hnil : s.queue.clean_demand = .ok s.queue := by
      unfold RcstQueue.clean_demand
      rw [show s.queue._demand = some [] from hk]
    unfold QueueAccount.step
    simp only [hnil]
    exact ⟨demands, h⟩
  | clean_queue =>
    -- an empty queue has no buffers
    have hlen : s.queue._queue_len = 0 := hk
    refine ⟨demands, h.demand, ?_, h.accounted.divided, h.accounted.not_wrapped, Holds.nil⟩
    have hacc := h.accounted.account
    rw [hlen] at hacc
    exact hacc
  | shift =>
    unfold QueueAccount.step
    dsimp only
    split
    · exact ⟨demands, h⟩
    next h0 =>
      have hg : s.granted - 1 + 1 = s.granted := Nat.sub_add_cancel (Nat.pos_of_ne_zero h0)
      rw [← hg] at h
      obtain ⟨q', hq, h'⟩ | he | he := Yields.cases (shiftSlot_settled h)
      · simp only [hq]; exact h'
      · simp only [he]; exact .inl rfl
      · simp only [he]; exact .inr rfl

end QueueAccount

end Dvb
