import Nctuns.Gprs.Proofs.SenderProofs

/-!
# Acknowledgements between a sender and a receiver

A bit of an acknowledgement stands for a slot. It stands for a block as long as nothing of an earlier lap is
left where the bitmap is read, and no new lap has begun where it is applied.
-/

namespace Gprs

/-! ## What the receiver does to its slots -/

namespace RecvBuf

variable {b b' : RecvBuf} {i bsn : Nat} {ep : Blk}

/-- No slot has been filled. -/
structure Cleared (b b' : RecvBuf) : Prop where
  ssn : b'.ssn = b.ssn
  slot : ∀ i, (b'.slot i).state = RECEIVED → (b.slot i).state = RECEIVED

theorem Cleared.refl (b : RecvBuf) : Cleared b b := ⟨rfl, fun _ => id⟩

theorem Cleared.trans {b'' : RecvBuf} (h : Cleared b b') (h' : Cleared b' b'') : Cleared b b'' :=
  ⟨h'.ssn.trans h.ssn, fun i hi => h.slot i (h'.slot i hi)⟩

theorem cleared_forward_vq (b : RecvBuf) : Cleared b b.forward_vq := ⟨rfl, fun _ => id⟩

/-- The head is no slot. -/
theorem cleared_forward_head (b : RecvBuf) (bsn : Nat) : Cleared b (b.forward_head bsn) := by
  unfold forward_head
  split_ifs
  · exact ⟨rfl, fun _ => id⟩
  · exact .refl b

/-- The slots after one of them has been written. -/
theorem state_put {a : StateArray} {e : AckStateArrayElem} {hd tl j : Nat}
    (h : ((StateArray.mk (a.put i e) hd tl).slot j).state = RECEIVED) :
    j = i ∧ e.state = RECEIVED ∨ (a.slot j).state = RECEIVED := by
  by_cases hlen : i < a.array.length
  · rw [StateArray.slot_put hlen] at h
    split_ifs at h with heq
    · exact Or.inl ⟨heq, h⟩
    · exact Or.inr h
  · right
    unfold StateArray.slot StateArray.put at *
    rw [List.set_eq_of_length_le (by omega)] at h
    exact h

/-- Slots are emptied. -/
theorem cleared_recycle_slots (inds : List Nat) (b : RecvBuf) : Cleared b (recycle_slots inds b) := by
  induction inds generalizing b with
  | nil => exact .refl b
  | cons ind inds ih =>
    unfold recycle_slots
    split_ifs
    · exact ih b
    · exact .refl b
    · have hput : Cleared b { b with array := b.put ind .init } :=
        ⟨rfl, fun i hi => (state_put hi).resolve_left fun h => absurd h.2 (by decide)⟩
      exact hput.trans (ih _)

theorem cleared_recycle (b : RecvBuf) : Cleared b b.recycle :=
  (cleared_forward_vq b).trans (cleared_recycle_slots _ _)

/-- Slots are emptied. -/
theorem cleared_recycle_events (inds : List Nat) (b : RecvBuf) :
    Cleared b (recycle_events inds b) := by
  induction inds generalizing b with
  | nil => exact .refl b
  | cons ind inds ih =>
    unfold recycle_events
    split_ifs with h1 h2
    · exact .refl b
    · have hput : Cleared b { b with
          array := b.put ind { state := RECEIVED, bsn := -1, upper_layer_pdu := none } } := by
        refine ⟨rfl, ?_⟩
        intro i hi
        rcases state_put hi with ⟨rfl, -⟩ | hi
        · exact not_not.1 h1
        · exact hi
      exact hput.trans (ih _)
    · exact ih b

/-- The slots of a packet are emptied. -/
theorem cleared_recycle_current_event {sbsn blk_cnt : Nat}
    (h : b.recycle_current_event sbsn blk_cnt = .ok b') : Cleared b b' := by
  unfold recycle_current_event at h
  split_ifs at h
  obtain rfl := Except.ok.inj h
  exact cleared_recycle_events _ _

/-- A block is stored in its slot, and `ssn` points behind it. -/
structure Stored (b b' : RecvBuf) (bsn : Nat) : Prop where
  ssn : b'.ssn = ((bsn + 1) % GPRS_SNS : Nat)
  slot : ∀ i, (b'.slot i).state = RECEIVED → i = bsn ∨ (b.slot i).state = RECEIVED

/-- A block is stored between two clearings. -/
theorem Cleared.stored {b1 b2 : RecvBuf} (h : Cleared b b1) (h' : Cleared (b1.store ep bsn) b2) :
    Stored b b2 bsn := by
  refine ⟨h'.ssn, ?_⟩
  intro i hi
  rcases state_put (h'.slot i hi) with ⟨heq, -⟩ | hi
  · exact Or.inl heq
  · exact Or.inr (h.slot i hi)

/-- A block is stored, or refused. -/
theorem insert_cases {taken : Bool} (h : b.insert ep bsn = .ok (taken, b')) :
    if taken then Stored b b' bsn else Cleared b b' := by
  unfold insert at h
  split_ifs at h with hrange
  split at h
  · cases h
  · dsimp only at h
    split_ifs at h
    · obtain ⟨rfl, rfl⟩ := Prod.mk.inj (Except.ok.inj h)
      exact .refl b
    · obtain ⟨rfl, rfl⟩ := Prod.mk.inj (Except.ok.inj h)
      exact cleared_recycle b
    · obtain ⟨rfl, rfl⟩ := Prod.mk.inj (Except.ok.inj h)
      exact (cleared_recycle b).stored ((cleared_forward_head _ _).trans (cleared_forward_vq _))
    · obtain ⟨rfl, rfl⟩ := Prod.mk.inj (Except.ok.inj h)
      exact (cleared_recycle b).stored (cleared_forward_head _ _)
    · obtain ⟨rfl, rfl⟩ := Prod.mk.inj (Except.ok.inj h)
      exact (cleared_recycle b).stored (cleared_forward_vq _)
    · obtain ⟨rfl, rfl⟩ := Prod.mk.inj (Except.ok.inj h)
      exact (cleared_recycle b).stored (.refl _)

end RecvBuf

namespace Link

open SendBuf

variable {s s' : Link} {lo n : Nat}

/-! ## The invariant -/

/-- A bit that is set stands for a block less than a lap behind the one that had been stored last. -/
def Sound (s : Link) (p : AckNack × Nat) : Prop :=
  p.1.starting_sequence_number = (p.2 + 1) % GPRS_SNS ∧ p.2 < s.serials ∧
    ∀ i < GPRS_WS, p.1.received_block_bitmap.getD i 0 = RECEIVED →
      ∃ n ∈ s.stored, n % GPRS_SNS = bitSlot p.1 i ∧ p.2 < n + GPRS_SNS

/-- The ring of the sender from `lo` on, what is on the air, and what has been stored. -/
structure Inv (s : Link) (lo : Nat) : Prop where
  ring : Ring s.vb lo s.serials
  trimmed : Trimmed s.vb lo s.serials
  room : s.serials < lo + GPRS_SNS
  air : ∀ blk ∈ s.air, blk.user_data_bsn = blk.serial % GPRS_SNS ∧ blk.serial < s.serials
  stored : ∀ n ∈ s.stored, n < s.serials
  received : ∀ i, (s.vn.slot i).state = RECEIVED → ∃ n, s.storedAt i = some n
  ssn : ∀ last ∈ s.stored.head?, s.vn.ssn = ((last + 1) % GPRS_SNS : Nat)
  acks : ∀ p ∈ s.acks, s.Sound p
  acked : s.AckedStored

/-- Nothing is on its way. -/
theorem Inv.init : Inv .init 0 where
  ring := Ring.init
  trimmed := by
    intro h
    exact absurd h (Nat.lt_irrefl 0)
  room := by decide
  air := by simp [Link.init]
  stored := by simp [Link.init]
  received := by
    intro i hi
    have hslot : (RecvBuf.init.slot i).state = INVALID :=
      congrArg AckStateArrayElem.state (StateArray.slot_init i)
    have hi' : (RecvBuf.init.slot i).state = RECEIVED := hi
    rw [hslot] at hi'
    exact absurd hi' (by decide)
  ssn := by simp [Link.init]
  acks := by simp [Link.init]
  acked := by simp [Link.init, AckedStored]

/-- An acknowledgement stays sound. -/
theorem Sound.mono {p : AckNack × Nat} (h : s.Sound p) (hserials : s.serials ≤ s'.serials)
    (hstored : ∀ n ∈ s.stored, n ∈ s'.stored) : s'.Sound p := by
  refine ⟨h.1, lt_of_lt_of_le h.2.1 hserials, ?_⟩
  intro i hi hbit
  obtain ⟨n, hn, hslot, hlap⟩ := h.2.2 i hi hbit
  exact ⟨n, hstored n hn, hslot, hlap⟩

/-! ## Steps of the sender -/

/-- A block joins the window of the sender. -/
theorem Inv.pushed (h : Inv s lo) (hroom : s.serials + 1 < lo + GPRS_SNS) :
    s.vb.insert { user_data_bsn := s.vb.head, serial := s.serials } s.vb.head =
      .ok (true, s.vb.recycle.pushed { user_data_bsn := s.vb.head, serial := s.serials }) ∧
    Inv { s with
      vb := s.vb.recycle.pushed { user_data_bsn := s.vb.head, serial := s.serials }
      serials := s.serials + 1 } lo := by
  have hfull : s.vb.head + 1 ≠ s.vb.tail := by
    have hle := h.ring.le
    rw [h.ring.head, h.ring.tail]
    simp only [GPRS_SNS] at *
    omega
  have hlt : s.serials < lo + GPRS_SNS := h.room
  have hsame := h.ring.recycle_ring h.trimmed
  have hhead : s.vb.recycle.head = s.vb.head := congrArg StateArray.head hsame
  have hring : Ring s.vb.recycle lo s.serials := h.ring.congr hsame
  have htrim : Trimmed s.vb.recycle lo s.serials := by
    intro hlo
    unfold unacked
    rw [hsame]
    exact h.trimmed hlo
  refine ⟨?_, ?_⟩
  · rw [h.ring.insert h.trimmed, if_neg hfull, if_pos hlt]
  · rw [← hhead]
    refine ⟨hring.pushed hlt, hring.pushed_trimmed htrim, hroom, ?_, ?_, h.received, h.ssn, ?_, h.acked⟩
    · intro blk hblk
      exact ⟨(h.air blk hblk).1, Nat.lt_succ_of_lt (h.air blk hblk).2⟩
    · intro n hn
      exact Nat.lt_succ_of_lt (h.stored n hn)
    · intro p hp
      exact (h.acks p hp).mono (Nat.le_succ _) fun _ => id

/-- The blocks of a packet join the window. -/
theorem Inv.insert_blks (uplink : Bool) (cnt : Nat) (h : Inv s lo)
    (hroom : s.serials + cnt < lo + GPRS_SNS) :
    ∃ t, insert_blks uplink cnt s = .ok t ∧ Inv t lo := by
  induction cnt generalizing s with
  | zero => exact ⟨s, rfl, h⟩
  | succ cnt ih =>
    obtain ⟨hins, hinv⟩ := h.pushed (by omega)
    unfold Link.insert_blks
    rw [hins]
    exact ih hinv (by show s.serials + 1 + cnt < lo + GPRS_SNS; omega)

/-- `test_full` leaves room for all blocks of a frame. -/
theorem Inv.test_full (h : Inv s lo) {cnt : Nat} (hfull : s.vb.test_full cnt = .ok false) :
    s.serials + cnt < lo + GPRS_SNS := by
  have hle := h.ring.le
  have hroom := h.room
  have hhead := h.ring.head
  have htail := h.ring.tail
  unfold SendBuf.test_full at hfull
  split_ifs at hfull
  · cases Except.ok.inj hfull
  · simp only [GPRS_SNS] at *
    omega
  · have hlt := of_decide_eq_false (Except.ok.inj hfull)
    simp only [GPRS_SNS] at *
    omega
  · have hlt := of_decide_eq_false (Except.ok.inj hfull)
    simp only [GPRS_SNS] at *
    omega

/-- **Send.**. -/
theorem Inv.scheduler (h : Inv s lo) : Inv s.scheduler lo := by
  unfold Link.scheduler
  rcases get_transmitted_blk_cases s.vb with ⟨hnone, hvb⟩ | ⟨i, hblk, hhanded⟩
  · dsimp only
    rw [hnone]
    refine ⟨h.ring.congr hvb, ?_, h.room, ?_, h.stored, h.received, h.ssn, h.acks, h.acked⟩
    · intro hlt
      unfold unacked
      rw [hvb]
      exact h.trimmed hlt
    · intro blk hblk
      rw [Option.toList_none, List.append_nil] at hblk
      exact h.air blk hblk
  · obtain ⟨n, -, hn, hslot, hpdu⟩ := h.ring.held i hhanded.unacked
    have hlen : i < s.vb.array.length := by
      rw [h.ring.length]
      exact h.ring.lt_SNS hhanded.unacked
    dsimp only
    rw [hblk, hpdu]
    refine ⟨h.ring.handed hhanded, ?_, h.room, ?_, h.stored, h.received, h.ssn, h.acks, h.acked⟩
    · intro hlt
      exact (hhanded.unacked_iff hlen).2 (h.trimmed hlt)
    · intro blk hblk
      rcases List.mem_append.1 hblk with hblk | hblk
      · exact h.air blk hblk
      · obtain rfl := List.mem_singleton.1 hblk
        exact ⟨hslot.symm, hn⟩

/-- The slot of a bit, counted back from the block that had been stored last. -/
theorem Sound.bitSlot {p : AckNack × Nat} (h : s.Sound p) {i : Nat} (hi : i < GPRS_WS) :
    bitSlot p.1 i = (p.2 + GPRS_SNS - i) % GPRS_SNS := by
  unfold SendBuf.bitSlot slotBefore
  rw [h.1]
  simp only [GPRS_SNS, GPRS_WS] at *
  split_ifs <;> omega

/-- **Key step.** A block that an acknowledgement reaches has been stored. -/
theorem Inv.reaches (h : Inv s lo) {p : AckNack × Nat} (hp : s.Sound p)
    (hlap : s.serials ≤ p.2 + GPRS_SNS) {pre post : List Nat} {i : Nat} {blk : Blk}
    (hsplit : List.range GPRS_WS = pre ++ i :: post) (hr : Reaches s.vb p.1 pre i blk) :
    blk.serial ∈ s.stored := by
  obtain ⟨hbit, hun, hpdu, -, hends⟩ := hr
  have hi : i < GPRS_WS := by
    have hmem : i ∈ List.range GPRS_WS := hsplit ▸ List.mem_append_right _ List.mem_cons_self
    exact List.mem_range.1 hmem
  have hpre : ∀ j < i, j ∈ pre := by
    intro j hj
    have hlen : pre.length < GPRS_WS := by
      have := congrArg List.length hsplit
      simp only [List.length_range, List.length_append, List.length_cons] at this
      omega
    have hat : i = pre.length := by
      have := congrArg (fun l => l[pre.length]?) hsplit
      simp only [List.getElem?_range hlen, List.getElem?_append_right (le_refl _), Nat.sub_self,
        List.getElem?_cons_zero, Option.some.injEq] at this
      exact this.symm
    have htake : pre = List.range pre.length := by
      have := congrArg (List.take pre.length) hsplit
      rw [List.take_left, List.take_range, Nat.min_eq_left (Nat.le_of_lt hlen)] at this
      exact this.symm
    rw [htake]
    exact List.mem_range.2 (hat ▸ hj)
  obtain ⟨m, hm1, hm2, hm3, hm4⟩ := h.ring.held _ hun
  rw [hpdu] at hm4
  obtain rfl := Option.some.inj hm4
  obtain ⟨n, hn, hn1, hn2⟩ := hp.2.2 i hi hbit
  have hn3 := h.stored n hn
  have hlast := hp.2.1
  have hroom := h.room
  have hslot := hp.bitSlot hi
  -- the bits before this one have gone neither past the tail nor past the head
  have hlo : lo + i ≤ p.2 := by
    by_contra hlt
    by_cases hpast : lo ≤ p.2
    · have hj := (hends (p.2 - lo) (hpre _ (by omega))).2
      rw [hp.bitSlot (by omega), h.ring.tail] at hj
      simp only [GPRS_SNS] at *
      omega
    · have hj := (hends (p.2 + GPRS_SNS - s.serials) (hpre _ (by
        simp only [GPRS_SNS] at *
        omega))).1
      rw [hp.bitSlot (by simp only [GPRS_SNS, GPRS_WS] at *; omega), h.ring.head] at hj
      simp only [GPRS_SNS] at *
      omega
  have hmn : m = n := by
    simp only [GPRS_SNS, GPRS_WS] at *
    omega
  show m ∈ s.stored
  rw [hmn]
  exact hn

/-- **An acknowledgement arrives**, within a lap. -/
theorem Inv.recv_ack (h : Inv s lo) {k : Nat} (hc : s.InLap (.recv_ack k))
    (hs : s.recv_ack k = .ok s') : ∃ lo', Inv s' lo' := by
  unfold Link.recv_ack at hs
  cases hk : s.acks[k]? with
  | none =>
    rw [hk] at hs
    obtain rfl := Except.ok.inj hs
    exact ⟨lo, h⟩
  | some p =>
    rw [hk] at hs
    obtain ⟨ack, last⟩ := p
    have hsound : s.Sound (ack, last) := h.acks _ (List.mem_of_getElem? hk)
    have hlap : s.serials ≤ last + GPRS_SNS := hc (ack, last) hk
    obtain ⟨b', acked, lo', heq, -, -, hreach, hlo, hring, htrim, -, -⟩ :=
      h.ring.process_ack h.trimmed ack
    dsimp only at hs
    rw [heq] at hs
    obtain rfl := Except.ok.inj hs
    have hroom := h.room
    refine ⟨lo', hring, htrim, ?_, h.air, h.stored, h.received, h.ssn, ?_, ?_⟩
    · show s.serials < lo' + GPRS_SNS
      omega
    · intro p hp
      exact h.acks p (List.mem_of_mem_eraseIdx hp)
    · intro n hn
      rcases List.mem_append.1 hn with hn | hn
      · obtain ⟨blk, hblk, rfl⟩ := List.mem_map.1 hn
        obtain ⟨pre, i, post, hsplit, hr⟩ := hreach blk hblk
        exact h.reaches hsound hlap hsplit hr
      · exact h.acked n hn

/-! ## Steps of the receiver -/

/-- The receiver only empties slots. -/
theorem Inv.congr_vn {vn : RecvBuf} (h : Inv s lo) (hvn : RecvBuf.Cleared s.vn vn) :
    Inv { s with vn := vn } lo := by
  refine ⟨h.ring, h.trimmed, h.room, h.air, h.stored, ?_, ?_, h.acks, h.acked⟩
  · intro i hi
    exact h.received i (hvn.slot i hi)
  · intro last hlast
    rw [hvn.ssn]
    exact h.ssn last hlast

/-- A block that was on its way is stored. -/
theorem Inv.store {vn : RecvBuf} {blk : Blk} (h : Inv s lo) (hblk : blk ∈ s.air)
    (hvn : RecvBuf.Stored s.vn vn blk.user_data_bsn) :
    Inv { s with vn := vn, stored := blk.serial :: s.stored } lo := by
  obtain ⟨hbsn, hserial⟩ := h.air blk hblk
  refine ⟨h.ring, h.trimmed, h.room, h.air, ?_, ?_, ?_, ?_, ?_⟩
  · intro n hn
    rcases List.mem_cons.1 hn with rfl | hn
    · exact hserial
    · exact h.stored n hn
  · intro i hi
    unfold storedAt
    dsimp only
    rw [List.find?_cons]
    by_cases hslot : blk.serial % GPRS_SNS = i
    · rw [decide_eq_true hslot]
      exact ⟨_, rfl⟩
    · rw [decide_eq_false hslot]
      refine h.received i ((hvn.slot i hi).resolve_left fun heq => hslot ?_)
      rw [heq, hbsn]
  · intro last hlast
    obtain rfl : blk.serial = last := Option.some.inj hlast
    rw [hvn.ssn, hbsn, Nat.mod_add_mod]
  · intro p hp
    exact (h.acks p hp).mono (le_refl _) fun n hn => List.mem_cons_of_mem _ hn
  · intro n hn
    exact List.mem_cons_of_mem _ (h.acked n hn)

/-- **A block arrives.**. -/
theorem Inv.recv_data (h : Inv s lo) {copy : Nat} (hs : s.recv_data copy = .ok s') : Inv s' lo := by
  unfold Link.recv_data at hs
  cases hk : s.air[copy]? with
  | none =>
    rw [hk] at hs
    obtain rfl := Except.ok.inj hs
    exact h
  | some blk =>
    rw [hk] at hs
    dsimp only at hs
    split_ifs at hs with hold
    · obtain rfl := Except.ok.inj hs
      exact h
    · cases hins : s.vn.insert blk blk.user_data_bsn with
      | error e =>
        rw [hins] at hs
        cases hs
      | ok r =>
        obtain ⟨taken, vn⟩ := r
        have hcases := RecvBuf.insert_cases hins
        rw [hins] at hs
        cases taken with
        | true =>
          obtain rfl := Except.ok.inj hs
          exact h.store (List.mem_of_getElem? hk) hcases
        | false =>
          obtain rfl := Except.ok.inj hs
          exact h.congr_vn hcases

/-- **A packet has been put together.**. -/
theorem Inv.assembled (h : Inv s lo) {start_bsn total_blk_cnt : Nat}
    (hs : s.assembled start_bsn total_blk_cnt = .ok s') : Inv s' lo := by
  unfold Link.assembled at hs
  cases hvn : s.vn.recycle_current_event start_bsn total_blk_cnt with
  | error e =>
    rw [hvn] at hs
    cases hs
  | ok vn =>
    rw [hvn] at hs
    obtain rfl := Except.ok.inj hs
    exact h.congr_vn ((RecvBuf.cleared_recycle_current_event hvn).trans (RecvBuf.cleared_recycle vn))

/-- An acknowledgement of slots that are not left from an earlier lap is sound. -/
theorem Inv.create_ack (h : Inv s lo) (hc : s.InLap .create_ack) : Inv s.create_ack lo := by
  have hcreate : ∀ ack last rest, s.vn.create_ack = some ack → s.stored = last :: rest →
      s.create_ack = { s with acks := s.acks ++ [(ack, last)] } := by
    intro ack last rest hack hstored
    unfold Link.create_ack
    rw [hack, hstored]
  rcases hstored : s.stored with _ | ⟨last, rest⟩
  · have hnone : s.create_ack = s := by
      unfold Link.create_ack
      rw [hstored]
      cases s.vn.create_ack <;> rfl
    rw [hnone]
    exact h
  · have hlast : last ∈ s.stored.head? := by rw [hstored]; rfl
    have hssn := h.ssn last hlast
    have hpos : ¬ s.vn.ssn < 0 := by
      rw [hssn]
      omega
    have hnat : s.vn.ssn.toNat = (last + 1) % GPRS_SNS := by
      rw [hssn]
      rfl
    rw [hcreate _ last rest (if_neg hpos) hstored]
    refine ⟨h.ring, h.trimmed, h.room, h.air, h.stored, h.received, h.ssn, ?_, h.acked⟩
    intro p hp
    rcases List.mem_append.1 hp with hp | hp
    · exact h.acks p hp
    · obtain rfl := List.mem_singleton.1 hp
      have hmod : (last + 1) % GPRS_SNS % 256 = (last + 1) % GPRS_SNS := by
        simp only [GPRS_SNS]
        omega
      refine ⟨by rw [hnat, hmod], h.stored last (by rw [hstored]; exact List.mem_cons_self), ?_⟩
      intro i hi hbit
      have hi' : i + 1 ∈ List.range' 1 GPRS_WS := List.mem_range'_1.2 ⟨by omega, by omega⟩
      have hst : (s.vn.slot (slotBefore s.vn.ssn.toNat (i + 1))).state = RECEIVED := by
        have hget : ((List.range' 1 GPRS_WS).map fun i =>
            (s.vn.slot (slotBefore s.vn.ssn.toNat i)).state)[i]? =
            some (s.vn.slot (slotBefore s.vn.ssn.toNat (i + 1))).state := by
          rw [List.getElem?_map, List.getElem?_range' hi, Option.map_some, Nat.one_mul, Nat.add_comm]
        dsimp only at hbit
        rw [List.getD_eq_getElem?_getD, hget] at hbit
        exact hbit
      obtain ⟨n, hn⟩ := h.received _ hst
      refine ⟨n, List.mem_of_find?_eq_some hn, ?_, ?_⟩
      · have hfind : (s.stored.find? fun n =>
            decide (n % GPRS_SNS = slotBefore s.vn.ssn.toNat (i + 1))) = some n := hn
        have hslot := List.find?_some hfind
        rw [decide_eq_true_eq] at hslot
        unfold bitSlot
        dsimp only
        rw [hslot, hnat, hmod]
      · by_contra hstale
        exact hc (i + 1) hi' ⟨hst, n, hn, last, hlast, by omega⟩

/-! ## Runs -/

/-- **The invariant.** A step within a lap. -/
theorem Inv.step {uplink : Bool} {op : Op} (h : Inv s lo) (hc : s.InLap op)
    (hs : s.step uplink op = .ok s') : ∃ lo', Inv s' lo' := by
  unfold Link.step at hs
  cases op with
  | partition_upper_layer_pdu blk_cnt =>
    dsimp only at hs
    unfold Link.partition_upper_layer_pdu at hs
    cases hfull : s.vb.test_full blk_cnt with
    | error e =>
      rw [hfull] at hs
      cases hs
    | ok full =>
      rw [hfull] at hs
      cases full with
      | true =>
        obtain rfl := Except.ok.inj hs
        exact ⟨lo, h⟩
      | false =>
        obtain ⟨t, ht, hinv⟩ := h.insert_blks uplink blk_cnt (h.test_full hfull)
        obtain rfl := Except.ok.inj (ht.symm.trans hs)
        exact ⟨lo, hinv⟩
  | scheduler =>
    obtain rfl := Except.ok.inj hs
    exact ⟨lo, h.scheduler⟩
  | recv_data copy => exact ⟨lo, h.recv_data hs⟩
  | lose_data copy =>
    obtain rfl := Except.ok.inj hs
    refine ⟨lo, h.ring, h.trimmed, h.room, ?_, h.stored, h.received, h.ssn, h.acks, h.acked⟩
    intro blk hblk
    exact h.air blk (List.mem_of_mem_eraseIdx hblk)
  | assembled start_bsn total_blk_cnt => exact ⟨lo, h.assembled hs⟩
  | create_ack =>
    obtain rfl := Except.ok.inj hs
    exact ⟨lo, h.create_ack hc⟩
  | recv_ack k => exact h.recv_ack hc hs
  | lose_ack k =>
    obtain rfl := Except.ok.inj hs
    refine ⟨lo, h.ring, h.trimmed, h.room, h.air, h.stored, h.received, h.ssn, ?_, h.acked⟩
    intro p hp
    exact h.acks p (List.mem_of_mem_eraseIdx hp)

/-- **Acknowledgement safety.** In every run in which no bitmap has a slot left from an earlier lap, and none
    is applied when the sender is a lap ahead, what the sender marks has been stored. -/
theorem run_ackedStored (uplink : Bool) (ops : List Op)
    (h : Run.Along (step uplink) InLap .init ops) :
    Run.Always (step uplink) AckedStored .init ops := by
  have hrun : Run.Always (step uplink) (fun s => ∃ lo, Inv s lo) .init ops :=
    Run.Always.of_along (fun s op s' hI hc hs => hI.elim fun _ h => h.step hc hs) ⟨0, Inv.init⟩ h
  exact hrun.mono fun s hs => hs.elim fun _ h => h.acked

/-- Two blocks are sent, and the second one is lost. -/
theorem run_ackedStored_two :
    Run.Along (step true) InLap .init [.partition_upper_layer_pdu 2, .scheduler, .scheduler,
      .recv_data 0, .create_ack, .recv_ack 0] ∧
    Run.Always (step true) AckedStored .init [.partition_upper_layer_pdu 2, .scheduler, .scheduler,
      .recv_data 0, .create_ack, .recv_ack 0] := by
  have h : Run.Along (step true) InLap .init [.partition_upper_layer_pdu 2, .scheduler, .scheduler,
      .recv_data 0, .create_ack, .recv_ack 0] := by decide +kernel
  exact ⟨h, run_ackedStored true _ h⟩

/-! ## A lap -/

/-- A sender all of whose `n` blocks have been acknowledged. -/
def idle (n : Nat) : SendBuf where
  array := List.replicate GPRS_SNS .init
  head := n % GPRS_SNS
  tail := n % GPRS_SNS
  vs := n % GPRS_SNS
  va := n % GPRS_SNS
  cur_sent_pending_acked_bsn := 0

/-- The same sender with one more block. -/
def loaded (n state vs : Nat) : SendBuf where
  array := (List.replicate GPRS_SNS .init).set (n % GPRS_SNS)
    { state := state
      bsn := (n % GPRS_SNS : Nat)
      upper_layer_pdu := some { user_data_bsn := n % GPRS_SNS, serial := n } }
  head := (n + 1) % GPRS_SNS
  tail := n % GPRS_SNS
  vs := vs
  va := n % GPRS_SNS
  cur_sent_pending_acked_bsn := 0

theorem slot_replicate {hd tl i : Nat} :
    (StateArray.mk (List.replicate GPRS_SNS .init) hd tl).slot i = .init := by
  unfold StateArray.slot
  dsimp only
  rw [List.getD_eq_getElem?_getD, List.getElem?_replicate]
  split_ifs <;> rfl

/-- A ring without blocks. -/
theorem ring_replicate {hd tl vs va cur lo hi : Nat} (hhd : hd = hi % GPRS_SNS)
    (htl : tl = lo % GPRS_SNS) (hle : lo ≤ hi) (hroom : hi ≤ lo + GPRS_SNS) :
    Ring { array := List.replicate GPRS_SNS .init, head := hd, tail := tl, vs := vs, va := va,
           cur_sent_pending_acked_bsn := cur } lo hi :=
  ⟨List.length_replicate, htl, hhd, hle, hroom,
    fun _ hi => absurd hi (not_unacked_of_init slot_replicate), fun _ _ => slot_replicate⟩

/-- A block for an idle sender. -/
theorem idle_insert (n : Nat) :
    (idle n).insert { user_data_bsn := (idle n).head, serial := n } (idle n).head =
      .ok (true, loaded n NACK (n % GPRS_SNS)) := by
  have hring : Ring (idle n) n n := ring_replicate rfl rfl (le_refl n) (Nat.le_add_right _ _)
  have hrec : (idle n).recycle = idle n := by
    rw [hring.recycle]
    unfold SendBuf.forward_tail
    rw [scanned_of_eq rfl]
    rfl
  have hfull : (idle n).head + 1 ≠ (idle n).tail := Nat.succ_ne_self _
  rw [hring.insert (fun h => absurd h (Nat.lt_irrefl n)), if_neg hfull,
    if_pos (by simp only [GPRS_SNS]; omega), hrec]
  unfold SendBuf.pushed loaded idle
  dsimp only
  rw [Nat.mod_add_mod]
  rfl

/-- The slot of the block that is sent. -/
theorem slot_loaded (n state vs : Nat) : (loaded n state vs).slot (n % GPRS_SNS) =
    { state := state
      bsn := (n % GPRS_SNS : Nat)
      upper_layer_pdu := some { user_data_bsn := n % GPRS_SNS, serial := n } } := by
  have hlt : n % GPRS_SNS < (List.replicate GPRS_SNS AckStateArrayElem.init).length := by
    rw [List.length_replicate]
    exact Nat.mod_lt n (by decide)
  unfold StateArray.slot loaded
  dsimp only
  rw [List.getD_eq_getElem?_getD, List.getElem?_set_self hlt]
  rfl

/-- The block is sent. -/
theorem loaded_get_transmitted_blk (n : Nat) :
    (loaded n NACK (n % GPRS_SNS)).get_transmitted_blk =
      (some { user_data_bsn := n % GPRS_SNS, serial := n },
        loaded n PENDING_ACK ((n + 1) % GPRS_SNS)) := by
  have hslot := slot_loaded n NACK (n % GPRS_SNS)
  have htest : (loaded n NACK (n % GPRS_SNS)).window_test = 1 := by
    refine if_pos ⟨?_, le_refl _⟩
    exact Nat.lt_add_of_pos_right (by decide)
  unfold SendBuf.get_transmitted_blk
  rw [if_pos ⟨htest, by
    show ((loaded n NACK (n % GPRS_SNS)).slot (n % GPRS_SNS)).state = NACK
    rw [hslot]⟩]
  have harray : (loaded n NACK (n % GPRS_SNS)).put (n % GPRS_SNS)
      { state := PENDING_ACK
        bsn := (n % GPRS_SNS : Nat)
        upper_layer_pdu := some { user_data_bsn := n % GPRS_SNS, serial := n } } =
      (loaded n PENDING_ACK ((n + 1) % GPRS_SNS)).array := by
    unfold loaded StateArray.put
    dsimp only
    rw [List.set_set]
  unfold SendBuf.transmit
  dsimp only
  rw [show (loaded n NACK (n % GPRS_SNS)).vs = n % GPRS_SNS from rfl, hslot]
  dsimp only
  rw [harray]
  unfold loaded
  dsimp only
  rw [Nat.mod_add_mod]

/-- The slot in front. -/
theorem slotBefore_one (n : Nat) : slotBefore ((n + 1) % GPRS_SNS) 1 = n % GPRS_SNS := by
  unfold slotBefore
  simp only [GPRS_SNS]
  split_ifs <;> omega

/-- The block is acknowledged. -/
theorem loaded_process_ack {n : Nat} {ack : AckNack}
    (hssn : ack.starting_sequence_number = (n + 1) % GPRS_SNS)
    (hbit : ack.received_block_bitmap.getD 0 0 = ACKED) :
    (loaded n PENDING_ACK ((n + 1) % GPRS_SNS)).process_ack ack =
      .ok (idle (n + 1), [{ user_data_bsn := n % GPRS_SNS, serial := n }]) := by
  have hlt : n % GPRS_SNS < GPRS_SNS := Nat.mod_lt n (by decide)
  have hslot := slot_loaded n PENDING_ACK ((n + 1) % GPRS_SNS)
  have hbs : slotBefore ack.starting_sequence_number (0 + 1) = n % GPRS_SNS := by
    rw [hssn]
    exact slotBefore_one n
  have hpdu : ((loaded n PENDING_ACK ((n + 1) % GPRS_SNS)).slot (n % GPRS_SNS)).upper_layer_pdu =
      some { user_data_bsn := n % GPRS_SNS, serial := n } := by rw [hslot]
  have hdel := set_state_del (List.length_set.trans List.length_replicate) hlt hpdu
  have hdrop : (loaded n PENDING_ACK ((n + 1) % GPRS_SNS)).dropped (n % GPRS_SNS) =
      { array := List.replicate GPRS_SNS .init
        head := (n + 1) % GPRS_SNS
        tail := n % GPRS_SNS
        vs := (n + 1) % GPRS_SNS
        va := n % GPRS_SNS
        cur_sent_pending_acked_bsn := 0 } := by
    unfold SendBuf.dropped StateArray.put loaded
    dsimp only
    rw [List.set_set]
    congr 2
    exact StateArray.put_slot (a := ⟨List.replicate GPRS_SNS .init, 0, 0⟩) slot_replicate.symm
  rw [hdrop] at hdel
  generalize hb : ({ array := List.replicate GPRS_SNS .init
                     head := (n + 1) % GPRS_SNS
                     tail := n % GPRS_SNS
                     vs := (n + 1) % GPRS_SNS
                     va := n % GPRS_SNS
                     cur_sent_pending_acked_bsn := 0 } : SendBuf) = b' at hdel
  have hbits : (loaded n PENDING_ACK ((n + 1) % GPRS_SNS)).process_bits ack
      ((n + 1) % GPRS_SNS) (List.range GPRS_WS) false [] =
      .ok (b', [{ user_data_bsn := n % GPRS_SNS, serial := n }]) := by
    have hrange : List.range GPRS_WS = 0 :: 1 :: List.range' 2 62 := by decide
    have hhead : n % GPRS_SNS ≠ (n + 1) % GPRS_SNS := by
      simp only [GPRS_SNS]
      omega
    have hstate : (loaded n PENDING_ACK ((n + 1) % GPRS_SNS)).get_state (n % GPRS_SNS) =
        PENDING_ACK := by
      rw [get_state_eq hlt, hslot]
    rw [hrange]
    unfold SendBuf.process_bits
    dsimp only
    rw [hbs, if_neg (by simpa using hhead), if_pos ⟨hbit, hstate⟩, hdel, hslot]
    unfold SendBuf.process_bits
    dsimp only
    rw [if_pos (Or.inl (show (n % GPRS_SNS == (loaded n PENDING_ACK ((n + 1) % GPRS_SNS)).tail) = true
      from beq_self_eq_true _))]
    rfl
  have hring : Ring b' n (n + 1) := by
    rw [← hb]
    exact ring_replicate rfl rfl (Nat.le_succ n) (by simp only [GPRS_SNS]; omega)
  have hfree : ∀ i, b'.slot i = .init := by
    intro i
    rw [← hb]
    exact slot_replicate
  have hwindow : Sender.Window b' n (n + 1) (n + 1) := by
    refine ⟨by rw [← hb], Nat.le_succ n, le_refl _, by simp only [GPRS_WS]; omega, ?_, ?_⟩
    · intro k _ _
      rw [hfree]
      decide
    · intro k hk1 hk2
      omega
  obtain ⟨lo', hlo, hring', htrim, hpast, hmeet⟩ := hring.forward_tail fun h => by
    simp only [GPRS_SNS] at h
    omega
  have hlo' : lo' = n + 1 := by
    by_contra hne
    have hle := hring'.le
    have hun := unacked_forward_tail.1 (htrim (by omega))
    exact not_unacked_of_init (hfree _) hun
  have hwindow' := hwindow.forward_tail hring' hlo hpast hmeet
  have hfwd : b'.forward_tail = idle (n + 1) := by
    have harray : b'.forward_tail.array = List.replicate GPRS_SNS .init := by
      rw [forward_tail_array, ← hb]
    have hhead := hring'.head
    have htail := hring'.tail
    have hvs := hwindow'.vs
    have hva := forward_tail_va b'
    have hcur : b'.forward_tail.cur_sent_pending_acked_bsn = 0 := by
      rw [forward_tail_cur, ← hb]
    rw [hlo'] at htail
    revert harray hhead htail hvs hva hcur
    generalize b'.forward_tail = b
    obtain ⟨⟨array, head, tail⟩, vs, va, cur⟩ := b
    intro harray hhead htail hvs hva hcur
    dsimp only at harray hhead htail hvs hva hcur
    subst hva harray hhead htail hvs hcur
    rfl
  unfold SendBuf.process_ack
  rw [show (loaded n PENDING_ACK ((n + 1) % GPRS_SNS)).head = (n + 1) % GPRS_SNS from rfl, hbits]
  dsimp only
  rw [hfwd]

/-- V(Q) of a receiver after `n` blocks in order. -/
def nextVq (n : Nat) : Int := if n = 0 then 0 else if n = 1 then -1 else (n % GPRS_SNS : Nat)

/-- A receiver after `n` blocks in order, at most a lap. Near the end of the lap the first slots are given up
    for the next one. -/
def laid (n : Nat) : RecvBuf where
  array := (List.range GPRS_SNS).map fun i =>
    if i < n ∧ n ≤ i + 119 then
      { state := RECEIVED, bsn := i, upper_layer_pdu := some { user_data_bsn := i, serial := i } }
    else .init
  head := n % GPRS_SNS
  tail := ulong (nextVq n)
  ssn := if n = 0 then -1 else (n % GPRS_SNS : Nat)
  vq := nextVq n

/-- The slots of the receiver after `n` blocks. -/
theorem slot_laid {n i : Nat} (hi : i < GPRS_SNS) : (laid n).slot i =
    if i < n ∧ n ≤ i + 119 then
      { state := RECEIVED, bsn := i, upper_layer_pdu := some { user_data_bsn := i, serial := i } }
    else .init := by
  unfold StateArray.slot laid
  dsimp only
  rw [List.getD_eq_getElem?_getD, List.getElem?_map, List.getElem?_range hi]
  rfl

/-- The slots of the receiver have received or are empty. -/
theorem state_laid (n i : Nat) :
    ((laid n).slot i).state = RECEIVED ∨ ((laid n).slot i).state = INVALID := by
  by_cases hi : i < GPRS_SNS
  · rw [slot_laid hi]
    split_ifs
    · exact Or.inl rfl
    · exact Or.inr rfl
  · right
    unfold StateArray.slot laid
    dsimp only
    rw [List.getD_eq_getElem?_getD, List.getElem?_eq_none (by simpa using hi)]
    rfl

/-- What `recycle` does to slots that are filled or free. -/
theorem recycle_slots_laid (inds : List Nat) (b : RecvBuf)
    (hst : ∀ i, (b.slot i).state = RECEIVED ∨ (b.slot i).state = INVALID)
    (hinds : ∀ i ∈ inds, i < b.array.length) :
    ∃ array, RecvBuf.recycle_slots inds b = { b with array := array } ∧
      array.length = b.array.length ∧ ∀ j, array.getD j .init =
        if j ∈ inds ∧ j ≠ b.tail then .init else b.slot j := by
  induction inds generalizing b with
  | nil => exact ⟨b.array, rfl, rfl, fun j => by simp [StateArray.slot]⟩
  | cons ind inds ih =>
    unfold RecvBuf.recycle_slots
    split_ifs with htail hstop
    · obtain ⟨array, heq, hlen, hget⟩ := ih b hst fun i hi => hinds i (List.mem_cons_of_mem _ hi)
      refine ⟨array, heq, hlen, ?_⟩
      intro j
      rw [hget]
      have hiff : (j ∈ inds ∧ j ≠ b.tail) ↔ (j ∈ ind :: inds ∧ j ≠ b.tail) := by
        rw [List.mem_cons]
        constructor
        · rintro ⟨h1, h2⟩
          exact ⟨Or.inr h1, h2⟩
        · rintro ⟨h1 | h1, h2⟩
          · exact absurd (h1.trans htail) h2
          · exact ⟨h1, h2⟩
      simp only [hiff]
    · rcases hst ind with h | h
      · exact absurd h hstop.1
      · exact absurd h hstop.2
    · have hlen0 : ind < b.array.length := hinds ind List.mem_cons_self
      have hslot : ∀ j, StateArray.slot ⟨b.put ind .init, b.head, b.tail⟩ j =
          if j = ind then .init else b.slot j := fun j => StateArray.slot_put hlen0
      obtain ⟨array, heq, hlen, hget⟩ := ih { b with array := b.put ind .init } (by
          intro i
          rw [hslot]
          split_ifs
          · exact Or.inr rfl
          · exact hst i) (by
          intro i hi
          rw [StateArray.length_put]
          exact hinds i (List.mem_cons_of_mem _ hi))
      refine ⟨array, heq, hlen.trans StateArray.length_put, ?_⟩
      intro j
      rw [hget, hslot]
      by_cases hj : j = ind
      · subst hj
        rw [if_pos rfl, ite_self, if_pos ⟨List.mem_cons_self, htail⟩]
      · rw [if_neg hj]
        simp only [List.mem_cons, hj, false_or]

/-- The next block is within the window. -/
theorem laid_within (n bsn : Nat) :
    ∃ res, (laid n).within_recv_window bsn = .ok res ∧ ¬ res < 0 := by
  have hne : ((laid n).vq + GPRS_WS) % GPRS_SNS ≠ (laid n).vq := by
    unfold laid nextVq
    simp only [GPRS_SNS, GPRS_WS] at *
    split_ifs <;> omega
  unfold RecvBuf.within_recv_window
  dsimp only
  split_ifs <;> exact ⟨_, rfl, by decide⟩

/-- Without a gap below the head, V(Q) is V(R). -/
theorem forward_vq_of_no_gap {b : RecvBuf}
    (h : ∀ i, b.vq.toNat ≤ i → i < b.head → (b.slot i).state = RECEIVED) :
    b.forward_vq = { b with vq := b.ssn, tail := ulong b.ssn } := by
  have hfound : (if 0 ≤ b.vq ∧ (b.slot b.vq.toNat).state = RECEIVED then
      (List.range' b.vq.toNat (b.head - b.vq.toNat)).find? fun i => (b.slot i).state ≠ RECEIVED
      else none) = none := by
    split_ifs
    · rw [List.find?_eq_none]
      intro i hi
      rw [List.mem_range'_1] at hi
      rw [h i hi.1 (by omega)]
      decide
    · rfl
  unfold RecvBuf.forward_vq
  rw [hfound]

/-- All blocks have been received. -/
theorem laid_forward_vq {n : Nat} (hn : n < GPRS_SNS) :
    (laid n).forward_vq = { laid n with vq := (laid n).ssn, tail := ulong (laid n).ssn } := by
  apply forward_vq_of_no_gap
  intro i hi1 hi2
  have hhead : (laid n).head = n := Nat.mod_eq_of_lt hn
  have hvq : (laid n).vq = nextVq n := rfl
  rw [hhead] at hi2
  rw [hvq] at hi1
  have hnear : n ≤ i + 119 := by
    unfold nextVq at hi1
    simp only [GPRS_SNS] at *
    split_ifs at hi1 <;> omega
  rw [slot_laid (lt_trans hi2 hn), if_pos ⟨hi2, hnear⟩]

/-- Two rings agree where their slots do. -/
theorem array_ext {l l' : List AckStateArrayElem} (hlen : l.length = l'.length)
    (h : ∀ i < l.length, l.getD i .init = l'.getD i .init) : l = l' := by
  apply List.ext_getElem hlen
  intro i hi hi'
  have hget := h i hi
  rw [List.getD_eq_getElem?_getD, List.getD_eq_getElem?_getD, List.getElem?_eq_getElem hi,
    List.getElem?_eq_getElem hi'] at hget
  exact hget

/-- The recycling frees the ten slots from the head on and keeps the others. -/
theorem laid_recycle {n : Nat} (hn : n < GPRS_SNS) : ∃ array : List AckStateArrayElem,
    (laid n).recycle = { array := array, head := n, tail := ulong (laid n).ssn, ssn := (laid n).ssn,
                         vq := (laid n).ssn } ∧
      array.length = GPRS_SNS ∧
      (∀ j, (∃ cnt < 10, (n + cnt) % GPRS_SNS = j) → array.getD j .init = .init) ∧
      ∀ j, (¬ ∃ cnt < 10, (n + cnt) % GPRS_SNS = j) → array.getD j .init = (laid n).slot j := by
  have hlen : (laid n).array.length = GPRS_SNS := by
    unfold laid
    simp
  have hhead : (laid n).head = n := Nat.mod_eq_of_lt hn
  obtain ⟨array, heq, halen, hget⟩ := recycle_slots_laid
    ((List.range 10).map fun cnt => ((laid n).head + cnt) % GPRS_SNS) (laid n).forward_vq
    (by
      intro i
      rw [laid_forward_vq hn]
      exact state_laid n i)
    (by
      intro i hi
      obtain ⟨cnt, -, rfl⟩ := List.mem_map.1 hi
      rw [laid_forward_vq hn]
      show _ < (laid n).array.length
      rw [hlen]
      exact Nat.mod_lt _ (by decide))
  rw [laid_forward_vq hn] at heq hget halen
  refine ⟨array, ?_, halen.trans hlen, ?_, ?_⟩
  · unfold RecvBuf.recycle
    rw [laid_forward_vq hn]
    refine heq.trans ?_
    dsimp only
    rw [hhead]
  · rintro j ⟨cnt, hcnt, rfl⟩
    rw [hget]
    split_ifs with hj
    · rfl
    · -- the tail is the head itself, which has no block yet
      have hmem : (n + cnt) % GPRS_SNS ∈
          (List.range 10).map fun cnt => ((laid n).head + cnt) % GPRS_SNS :=
        List.mem_map.2 ⟨cnt, List.mem_range.2 hcnt, by rw [hhead]⟩
      have htail : (n + cnt) % GPRS_SNS = ulong (laid n).ssn := by
        by_contra hne
        exact hj ⟨hmem, hne⟩
      have hzero : (n + cnt) % GPRS_SNS = n := by
        rw [htail]
        unfold laid ulong at *
        dsimp only at *
        simp only [GPRS_SNS] at *
        split_ifs at * <;> omega
      show (laid n).slot ((n + cnt) % GPRS_SNS) = .init
      rw [hzero, slot_laid hn, if_neg (fun h => Nat.lt_irrefl n h.1)]
  · intro j hj
    have hnmem : ¬ (j ∈ (List.range 10).map (fun cnt => ((laid n).head + cnt) % GPRS_SNS) ∧
        j ≠ ulong (laid n).ssn) := by
      rintro ⟨hmem, -⟩
      obtain ⟨cnt, hcnt, heq'⟩ := List.mem_map.1 hmem
      rw [hhead] at heq'
      exact hj ⟨cnt, List.mem_range.1 hcnt, heq'⟩
    rw [hget, if_neg hnmem]
    rfl

/-- With the next block in its slot the ring is that of one block more. -/
theorem laid_slots {n : Nat} (hn : n < GPRS_SNS) {array : List AckStateArrayElem}
    (hlen : array.length = GPRS_SNS)
    (hfree : ∀ j, (∃ cnt < 10, (n + cnt) % GPRS_SNS = j) → array.getD j .init = .init)
    (hkept : ∀ j, (¬ ∃ cnt < 10, (n + cnt) % GPRS_SNS = j) → array.getD j .init = (laid n).slot j) :
    array.set n
      { state := RECEIVED
        bsn := n
        upper_layer_pdu := some { user_data_bsn := n, serial := n } } = (laid (n + 1)).array := by
  apply array_ext
  · rw [List.length_set, hlen]
    unfold laid
    simp
  · intro i hi
    rw [List.length_set, hlen] at hi
    show StateArray.slot ⟨StateArray.put ⟨array, 0, 0⟩ n _, 0, 0⟩ i = (laid (n + 1)).slot i
    rw [StateArray.slot_put (show n < array.length by rw [hlen]; exact hn), slot_laid hi]
    show (if i = n then _ else array.getD i .init) = _
    by_cases hin : i = n
    · subst hin
      rw [if_pos rfl, if_pos ⟨Nat.lt_succ_self i, by omega⟩]
    · rw [if_neg hin]
      by_cases hnear : ∃ cnt < 10, (n + cnt) % GPRS_SNS = i
      · rw [hfree i hnear, if_neg]
        obtain ⟨cnt, hcnt, rfl⟩ := hnear
        simp only [GPRS_SNS] at *
        omega
      · have hfar : n + 9 ≠ i + GPRS_SNS := by
          intro h9
          refine hnear ⟨9, by decide, ?_⟩
          simp only [GPRS_SNS] at *
          omega
        rw [hkept i hnear, slot_laid hi]
        by_cases hlt : i < n ∧ n ≤ i + 119
        · rw [if_pos hlt, if_pos ⟨by omega, by simp only [GPRS_SNS] at hfar; omega⟩]
        · rw [if_neg hlt, if_neg]
          intro hlt'
          exact hlt ⟨by omega, by omega⟩

/-- The next block is stored. -/
theorem laid_insert {n : Nat} (hn : n < GPRS_SNS) :
    (laid n).insert { user_data_bsn := n, serial := n } n = .ok (true, laid (n + 1)) := by
  obtain ⟨res, hres, hpos⟩ := laid_within n n
  obtain ⟨array, hrecycle, hlen, hfree, hkept⟩ := laid_recycle hn
  have hslots := laid_slots hn hlen hfree hkept
  unfold RecvBuf.insert
  rw [if_neg (not_not.2 (show StateArray.range_test n from hn)), hres]
  dsimp only
  rw [if_neg hpos, hrecycle]
  have hpdu : array.getD ((n + 1) % GPRS_SNS) .init = .init := hfree _ ⟨1, by decide, rfl⟩
  have hptr : array.getD n .init = .init := hfree _ ⟨0, by decide, Nat.mod_eq_of_lt hn⟩
  unfold StateArray.slot
  dsimp only
  rw [hpdu, hptr, if_neg (by decide),
    if_pos (Or.inl (show AckStateArrayElem.init.state = INVALID from rfl))]
  unfold RecvBuf.store RecvBuf.forward_head StateArray.put
  dsimp only
  rw [hslots, if_pos (le_of_eq (Nat.mod_eq_of_lt hn).symm)]
  dsimp only
  by_cases h0 : n = 0
  · subst h0
    rfl
  · have hssn : (laid n).ssn = n := by
      unfold laid
      dsimp only
      rw [if_neg h0, Nat.mod_eq_of_lt hn]
    have hvq : nextVq (n + 1) = ((n + 1) % GPRS_SNS : Nat) := by
      unfold nextVq
      rw [if_neg (Nat.succ_ne_zero n), if_neg (by omega)]
    rw [hssn, if_pos rfl, forward_vq_of_no_gap]
    · unfold laid
      dsimp only
      rw [if_neg (Nat.succ_ne_zero n), hvq]
      rfl
    · intro i hi1 hi2
      have hi1' : n ≤ i := hi1
      have hi2' : i < (n + 1) % GPRS_SNS := hi2
      have hin : i = n := by
        simp only [GPRS_SNS] at *
        omega
      show ((laid (n + 1)).slot i).state = RECEIVED
      rw [hin, slot_laid hn, if_pos ⟨Nat.lt_succ_self n, by omega⟩]

/-- `n` blocks have been sent, stored and acknowledged one after the other. -/
def delivered (n : Nat) : Link where
  vb := idle n
  vn := laid n
  serials := n
  air := []
  acks := []
  stored := (List.range n).reverse
  acked := (List.range n).reverse

/-- One block is sent, stored and acknowledged. -/
def round : List Op :=
  [.partition_upper_layer_pdu 1, .scheduler, .recv_data 0, .lose_data 0, .create_ack, .recv_ack 0]

/-- One block goes through. -/
theorem exec_round {n : Nat} (hn : n < GPRS_SNS) :
    Run.exec (step true) (delivered n) round = .ok (delivered (n + 1)) := by
  have hmod : n % GPRS_SNS = n := Nat.mod_eq_of_lt hn
  have hfull : (idle n).test_full 1 = .ok false := by
    have hends : (n + 1) % GPRS_SNS ≠ n := by
      simp only [GPRS_SNS] at *
      omega
    unfold SendBuf.test_full idle
    dsimp only
    rw [hmod, if_neg (by decide), if_neg hends, if_pos (le_refl n)]
    split_ifs
    · rfl
    · rw [decide_eq_false (by simp only [GPRS_SNS] at *; omega)]
  have hold : ¬ n < n + 1 - ((n + 1) % GPRS_SNS + GPRS_SNS - n % GPRS_SNS) % GPRS_SNS := by
    simp only [GPRS_SNS] at *
    omega
  have h1 : (delivered n).step true (.partition_upper_layer_pdu 1) = .ok { delivered n with
      vb := loaded n NACK (n % GPRS_SNS), serials := n + 1 } := by
    unfold Link.step Link.partition_upper_layer_pdu
    dsimp only
    rw [show (delivered n).vb.test_full 1 = _ from hfull]
    dsimp only
    unfold Link.insert_blks
    have hins : (delivered n).vb.insert
        { user_data_bsn := (delivered n).vb.head, serial := (delivered n).serials }
        (delivered n).vb.head = .ok (true, loaded n NACK (n % GPRS_SNS)) := idle_insert n
    rw [hins]
    rfl
  have h2 : Link.step true { delivered n with
      vb := loaded n NACK (n % GPRS_SNS), serials := n + 1 } .scheduler = .ok { delivered n with
      vb := loaded n PENDING_ACK ((n + 1) % GPRS_SNS)
      serials := n + 1
      air := [{ user_data_bsn := n, serial := n }] } := by
    unfold Link.step Link.scheduler
    dsimp only
    rw [loaded_get_transmitted_blk, hmod]
    rfl
  have h3 : Link.step true { delivered n with
      vb := loaded n PENDING_ACK ((n + 1) % GPRS_SNS)
      serials := n + 1
      air := [{ user_data_bsn := n, serial := n }] } (.recv_data 0) = .ok { delivered (n + 1) with
      vb := loaded n PENDING_ACK ((n + 1) % GPRS_SNS)
      air := [{ user_data_bsn := n, serial := n }]
      acked := (List.range n).reverse } := by
    have hwin : ¬ n < Link.oldest { delivered n with
        vb := loaded n PENDING_ACK ((n + 1) % GPRS_SNS)
        serials := n + 1
        air := [{ user_data_bsn := n, serial := n }] } := hold
    have hins : (delivered n).vn.insert { user_data_bsn := n, serial := n } n =
        .ok (true, laid (n + 1)) := laid_insert hn
    unfold Link.step Link.recv_data
    dsimp only
    rw [show ([{ user_data_bsn := n, serial := n }] : List Blk)[0]? =
      some { user_data_bsn := n, serial := n } from rfl]
    dsimp only
    rw [if_neg hwin, hins]
    unfold delivered
    dsimp only
    rw [List.range_succ, List.reverse_append]
    rfl
  have hack : (laid (n + 1)).create_ack = some
      { starting_sequence_number := (n + 1) % GPRS_SNS
        received_block_bitmap := (List.range' 1 GPRS_WS).map fun i =>
          ((laid (n + 1)).slot (slotBefore ((n + 1) % GPRS_SNS) i)).state } := by
    have hssn : (laid (n + 1)).ssn = ((n + 1) % GPRS_SNS : Nat) := by
      unfold laid
      dsimp only
      rw [if_neg (Nat.succ_ne_zero n)]
    unfold RecvBuf.create_ack
    rw [hssn, if_neg (by omega)]
    rw [Int.toNat_natCast, Nat.mod_eq_of_lt (show (n + 1) % GPRS_SNS < 256 by
      simp only [GPRS_SNS]
      omega)]
  have hbit : ((List.range' 1 GPRS_WS).map fun i =>
      ((laid (n + 1)).slot (slotBefore ((n + 1) % GPRS_SNS) i)).state).getD 0 0 = ACKED := by
    show ((laid (n + 1)).slot (slotBefore ((n + 1) % GPRS_SNS) 1)).state = ACKED
    rw [slotBefore_one, hmod, slot_laid hn, if_pos ⟨Nat.lt_succ_self n, by omega⟩]
    rfl
  have hproc : (loaded n PENDING_ACK ((n + 1) % GPRS_SNS)).process_ack
      { starting_sequence_number := (n + 1) % GPRS_SNS
        received_block_bitmap := (List.range' 1 GPRS_WS).map fun i =>
          ((laid (n + 1)).slot (slotBefore ((n + 1) % GPRS_SNS) i)).state } =
      .ok (idle (n + 1), [{ user_data_bsn := n % GPRS_SNS, serial := n }]) :=
    loaded_process_ack rfl hbit
  have h4 : Link.step true { delivered (n + 1) with
      vb := loaded n PENDING_ACK ((n + 1) % GPRS_SNS)
      air := [{ user_data_bsn := n, serial := n }]
      acked := (List.range n).reverse } (.lose_data 0) = .ok { delivered (n + 1) with
      vb := loaded n PENDING_ACK ((n + 1) % GPRS_SNS)
      air := []
      acked := (List.range n).reverse } := rfl
  have h5 : Link.step true { delivered (n + 1) with
      vb := loaded n PENDING_ACK ((n + 1) % GPRS_SNS)
      air := []
      acked := (List.range n).reverse } .create_ack = .ok { delivered (n + 1) with
      vb := loaded n PENDING_ACK ((n + 1) % GPRS_SNS)
      acks := [({ starting_sequence_number := (n + 1) % GPRS_SNS
                  received_block_bitmap := (List.range' 1 GPRS_WS).map fun i =>
                    ((laid (n + 1)).slot (slotBefore ((n + 1) % GPRS_SNS) i)).state }, n)]
      acked := (List.range n).reverse } := by
    unfold Link.step Link.create_ack delivered
    dsimp only
    rw [hack, List.range_succ, List.reverse_append]
    rfl
  have h6 : Link.step true { delivered (n + 1) with
      vb := loaded n PENDING_ACK ((n + 1) % GPRS_SNS)
      acks := [({ starting_sequence_number := (n + 1) % GPRS_SNS
                  received_block_bitmap := (List.range' 1 GPRS_WS).map fun i =>
                    ((laid (n + 1)).slot (slotBefore ((n + 1) % GPRS_SNS) i)).state }, n)]
      acked := (List.range n).reverse } (.recv_ack 0) = .ok (delivered (n + 1)) := by
    unfold Link.step Link.recv_ack delivered
    dsimp only
    rw [List.getElem?_cons_zero]
    dsimp only
    rw [hproc]
    dsimp only
    rw [List.range_succ, List.reverse_append]
    rfl
  unfold round Run.exec
  rw [h1]
  dsimp only
  unfold Run.exec
  rw [h2]
  dsimp only
  unfold Run.exec
  rw [h3]
  dsimp only
  unfold Run.exec
  rw [h4]
  dsimp only
  unfold Run.exec
  rw [h5]
  dsimp only
  unfold Run.exec
  rw [h6]
  rfl

/-- A lap of blocks, and 12 more of which only the last one arrives. -/
def lost_lap : List Op :=
  (List.replicate 128 round).flatten ++ .partition_upper_layer_pdu 12 ::
    List.replicate 12 .scheduler ++ List.replicate 11 (.lose_data 0) ++
    [.recv_data 0, .create_ack, .recv_ack 0]

/-- A whole lap goes through. -/
theorem exec_lap (n : Nat) (hn : n ≤ GPRS_SNS) :
    Run.exec (step true) .init (List.replicate n round).flatten = .ok (delivered n) := by
  induction n with
  | zero =>
    have hstart : delivered 0 = Link.init := by decide +kernel
    rw [hstart]
    rfl
  | succ n ih =>
    rw [List.replicate_succ', List.flatten_append, Run.exec_append (ih (by omega)),
      List.flatten_singleton]
    exact exec_round hn

/-- Block 138 is lost, and acknowledged by what is left of block 10. -/
theorem stale_slot_acknowledges : ¬ Run.Always (step true) AckedStored .init lost_lap := by
  intro h
  have hend : (Run.exec (step true) (delivered 128) (.partition_upper_layer_pdu 12 ::
      List.replicate 12 .scheduler ++ List.replicate 11 (.lose_data 0) ++
      [.recv_data 0, .create_ack, .recv_ack 0])).map
      (fun s => (s.acked.contains 138, s.stored.contains 138)) = .ok (true, false) := by decide +kernel
  rw [← Run.exec_append (exec_lap 128 (by decide)), ← List.append_assoc, ← List.append_assoc] at hend
  obtain ⟨s, hs, hb⟩ := h.exec_map hend
  obtain ⟨hacked, hstored⟩ := Prod.mk.inj hb
  have hmem := hs 138 (List.contains_iff_mem.1 hacked)
  rw [List.contains_eq_mem, decide_eq_false_iff_not] at hstored
  exact hstored hmem

end Link

end Gprs
