import Nctuns.Gprs.StateArray

/-!
# A receiver by itself

`vq` is taken from `ssn` before the first block, when `ssn` is still `-1`, and the first block leaves it
there.
-/

namespace Gprs

namespace RecvBuf

variable {b : RecvBuf}

/-- No block has come in. -/
structure Fresh (b : RecvBuf) : Prop where
  slot : ∀ i, b.slot i = .init
  head : b.head = 0
  ssn : b.ssn = -1
  vq : b.vq = 0 ∨ b.vq = -1

theorem Fresh.init : Fresh .init := by
  refine ⟨?_, rfl, rfl, Or.inl rfl⟩
  intro i
  show (List.replicate GPRS_SNS AckStateArrayElem.init).getD i .init = .init
  rw [List.getD_eq_getElem?_getD, List.getElem?_replicate]
  split_ifs <;> rfl

/-- `forward_vq` takes `vq` from `ssn`. -/
theorem Fresh.forward_vq (h : Fresh b) : Fresh b.forward_vq ∧ b.forward_vq.vq = -1 := by
  have hfound : ¬ (0 ≤ b.vq ∧ (b.slot b.vq.toNat).state = RECEIVED) := by
    rintro ⟨-, hst⟩
    rw [h.slot] at hst
    exact absurd hst (by decide)
  have hvq : b.forward_vq.vq = b.ssn := by
    unfold RecvBuf.forward_vq
    rw [if_neg hfound]
  have hssn : b.forward_vq.ssn = b.ssn := rfl
  refine ⟨⟨h.slot, h.head, ?_, Or.inr ?_⟩, ?_⟩
  · rw [hssn]
    exact h.ssn
  · rw [hvq]
    exact h.ssn
  · rw [hvq]
    exact h.ssn

theorem Fresh.recycle_slots (h : Fresh b) (inds : List Nat) :
    Fresh (recycle_slots inds b) ∧ (recycle_slots inds b).vq = b.vq := by
  induction inds generalizing b with
  | nil => exact ⟨h, rfl⟩
  | cons ind inds ih =>
    unfold RecvBuf.recycle_slots
    split_ifs
    · exact ih h
    · exact ⟨h, rfl⟩
    · have hslot : ∀ i, StateArray.slot ⟨b.put ind .init, b.head, b.tail⟩ i = .init := by
        intro i
        have hi := h.slot i
        unfold StateArray.slot StateArray.put at *
        rw [List.getD_eq_getElem?_getD] at hi ⊢
        rw [List.getElem?_set]
        split_ifs
        · rfl
        · rfl
        · exact hi
      exact ih ⟨hslot, h.head, h.ssn, h.vq⟩

theorem Fresh.recycle (h : Fresh b) : Fresh b.recycle ∧ b.recycle.vq = -1 := by
  obtain ⟨hf, hvq⟩ := h.forward_vq
  obtain ⟨hr, hrvq⟩ := hf.recycle_slots ((List.range 10).map fun cnt => (b.head + cnt) % GPRS_SNS)
  exact ⟨hr, hrvq.trans hvq⟩

theorem Fresh.within_recv_window (h : Fresh b) (bsn : Nat) :
    ∃ res, b.within_recv_window bsn = .ok res ∧ ¬ res < 0 := by
  have hwin : (b.vq + GPRS_WS) % GPRS_SNS > b.vq := by
    rcases h.vq with hvq | hvq <;> rw [hvq] <;> decide
  unfold RecvBuf.within_recv_window
  dsimp only
  rw [if_pos hwin]
  refine ⟨_, rfl, ?_⟩
  split_ifs <;> decide

/-- The first block is taken, and leaves `vq` at `-1`. -/
theorem Fresh.insert (h : Fresh b) (ep : Blk) {bsn : Nat} (hbsn : bsn < GPRS_SNS) :
    ∃ b', b.insert ep bsn = .ok (true, b') ∧ b'.vq = -1 := by
  obtain ⟨res, hres, hpos⟩ := h.within_recv_window bsn
  obtain ⟨hf, hvq⟩ := h.recycle
  unfold RecvBuf.insert
  rw [if_neg (not_not.2 (show StateArray.range_test bsn from hbsn)), hres]
  dsimp only
  rw [if_neg hpos, hf.slot, hf.slot, if_neg (by decide),
    if_pos (Or.inl (show AckStateArrayElem.init.state = INVALID from rfl))]
  refine ⟨_, rfl, ?_⟩
  have hfwd : ((b.recycle.store ep bsn).forward_head bsn).vq = -1 := by
    unfold forward_head
    split_ifs
    · exact hvq
    · exact hvq
  rw [hfwd, if_neg (by omega)]
  exact hfwd

theorem Fresh.recycle_current_event (h : Fresh b) {b' : RecvBuf} {sbsn blk_cnt : Nat}
    (hb : b.recycle_current_event sbsn blk_cnt = .ok b') : b' = b := by
  unfold RecvBuf.recycle_current_event at hb
  split_ifs at hb
  obtain rfl := Except.ok.inj hb
  cases (List.range blk_cnt).map fun cnt => (sbsn + cnt) % GPRS_SNS with
  | nil => rfl
  | cons ind inds =>
    unfold recycle_events
    rw [h.slot]
    exact if_pos (by decide)

end RecvBuf

namespace Receiver

variable {s s' : Receiver}

/-- The state variables are wrong once a block has been taken, or none has. -/
theorem fresh_step {op : Op} (h : s.vn.Fresh) (hs : s.step op = .ok s') (hr : s'.Right) :
    s'.vn.Fresh ∧ s'.received = s.received := by
  cases op with
  | insert n =>
    obtain ⟨b', hb, hvq⟩ := h.insert { user_data_bsn := n % GPRS_SNS, serial := n }
      (Nat.mod_lt n (by decide : 0 < GPRS_SNS))
    unfold Receiver.step at hs
    dsimp only at hs
    rw [hb] at hs
    obtain rfl := Except.ok.inj hs
    have hright := (hr (List.cons_ne_nil _ _)).2
    dsimp only at hright
    rw [hvq] at hright
    omega
  | assembled start_bsn total_blk_cnt =>
    unfold Receiver.step at hs
    dsimp only at hs
    cases hb : s.vn.recycle_current_event start_bsn total_blk_cnt with
    | error e =>
      rw [hb] at hs
      cases hs
    | ok vn =>
      rw [hb] at hs
      obtain rfl := Except.ok.inj hs
      rw [h.recycle_current_event hb]
      exact ⟨h.recycle.1, rfl⟩

/-- What has been received stays so. -/
theorem received_step {op : Op} (hs : s.step op = .ok s') (h : s'.received = []) :
    s.received = [] := by
  unfold Receiver.step at hs
  cases op with
  | insert n =>
    dsimp only at hs
    split at hs
    · cases hs
    · obtain rfl := Except.ok.inj hs
      exact absurd h (List.cons_ne_nil _ _)
    · obtain rfl := Except.ok.inj hs
      exact h
  | assembled start_bsn total_blk_cnt =>
    dsimp only at hs
    split at hs
    · cases hs
    · obtain rfl := Except.ok.inj hs
      exact h

theorem received_exec {ops : List Op} {t : Receiver} (ht : Run.exec step s ops = .ok t)
    (hend : t.received = []) : Run.Always step (fun s => s.received = []) s ops := by
  induction ops generalizing s with
  | nil =>
    obtain rfl := Except.ok.inj ht
    exact hend
  | cons op ops ih =>
    unfold Run.exec at ht
    cases hstep : s.step op with
    | error e =>
      rw [hstep] at ht
      cases ht
    | ok s' =>
      rw [hstep] at ht
      have hnext := ih ht
      refine ⟨received_step hstep hnext.head, ?_⟩
      intro s'' hs''
      obtain rfl := Except.ok.inj (hstep.symm.trans hs'')
      exact hnext

theorem received_of_right {ops : List Op} {t : Receiver} (hf : s.vn.Fresh) (hs : s.received = [])
    (ht : Run.exec step s ops = .ok t) (h : Run.Always step Right s ops) : t.received = [] := by
  induction ops generalizing s with
  | nil =>
    obtain rfl := Except.ok.inj ht
    exact hs
  | cons op ops ih =>
    unfold Run.exec at ht
    cases hstep : s.step op with
    | error e =>
      rw [hstep] at ht
      cases ht
    | ok s' =>
      rw [hstep] at ht
      have hnext := h.2 s' hstep
      obtain ⟨hf', hs'⟩ := fresh_step hf hstep hnext.head
      exact ih hf' (hs'.trans hs) ht hnext

/-- **State variables.** V(R) and V(Q) are right in every state of a run exactly if no block is taken. -/
theorem run_right_iff (ops : List Op) (t : Receiver) (ht : Run.exec step .init ops = .ok t) :
    Run.Always step Right .init ops ↔ t.received = [] := by
  constructor
  · intro h
    exact received_of_right RecvBuf.Fresh.init rfl ht h
  · intro h
    exact (received_exec ht h).mono fun s hs hne => absurd hs hne

/-- The blocks 0 and 1 come in. -/
theorem run_right_iff_two : ∃ t, Run.exec step .init [.insert 0, .insert 1] = .ok t ∧
    (Run.Always step Right .init [.insert 0, .insert 1] ↔ t.received = []) := by
  obtain ⟨t, ht, -⟩ := Run.exec_map
    (show (Run.exec step .init [.insert 0, .insert 1]).map (·.received) = .ok [1, 0] by
      decide +kernel)
  exact ⟨t, ht, run_right_iff _ t ht⟩

/-- After block 0, V(Q) is `-1`. -/
theorem first_block_leaves_vq : ¬ Run.Always step Right .init [.insert 0] := by
  intro h
  obtain ⟨s, hs, hb⟩ := h.exec_map
    (show (Run.exec step .init [.insert 0]).map (fun s => decide s.Right) = .ok false by
      decide +kernel)
  exact of_decide_eq_false hb hs

end Receiver

end Gprs
