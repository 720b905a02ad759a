import Nctuns.Gprs.Proofs.SendBufProofs

/-!
# A sender by itself

The ring keeps what has not been acknowledged until one insertion too many makes it look empty. The window
is kept as long as the search for a block does not start in a hole.
-/

namespace Gprs

namespace Sender

open SendBuf

variable {s s' : Sender} {lo n : Nat}

/-! ## The ring keeps what has not been acknowledged -/

/-- The ring holds the blocks from `lo` on, and all others have been acknowledged. -/
structure Kept (s : Sender) (lo : Nat) : Prop where
  ring : Ring s.vb lo s.serials
  trimmed : Trimmed s.vb lo s.serials
  past : ∀ n < lo, n ∈ s.acked
  done : ∀ n, lo ≤ n → n < s.serials → s.vb.unacked (n % GPRS_SNS) ∨ n ∈ s.acked

theorem Kept.init : Kept .init 0 where
  ring := Ring.init
  trimmed := by
    intro h
    exact absurd h (Nat.lt_irrefl 0)
  past := by
    intro n h
    exact absurd h (Nat.not_lt_zero n)
  done := by
    intro n _ h
    exact absurd h (Nat.not_lt_zero n)

theorem Kept.congr {vb : SendBuf} (h : Kept s lo) (hvb : vb.toStateArray = s.vb.toStateArray)
    (sent : Option Blk) : Kept { s with vb := vb, sent := sent } lo := by
  have hun : ∀ i, vb.unacked i ↔ s.vb.unacked i := by
    intro i
    unfold unacked
    rw [hvb]
  refine ⟨h.ring.congr hvb, ?_, h.past, ?_⟩
  · intro hlt
    exact (hun _).2 (h.trimmed hlt)
  · intro n hlo hhi
    exact (h.done n hlo hhi).imp_left (hun _).2

theorem Kept.contains (h : Kept s lo) (hroom : s.serials < lo + GPRS_SNS) : s.Contains := by
  constructor
  · intro n hn hacked
    have hlo : lo ≤ n := by
      by_contra hlt
      exact hacked (h.past n (by omega))
    have hun := (h.done n hlo hn).resolve_right hacked
    exact ⟨hun, h.ring.pdu hlo hn hun⟩
  · intro hempty i hun
    obtain ⟨m, hm1, hm2, -, -⟩ := h.ring.held i hun
    unfold StateArray.is_empty at hempty
    rw [h.ring.head, h.ring.tail] at hempty
    simp only [GPRS_SNS] at *
    omega

/-- A full ring looks empty. -/
theorem Kept.not_contains (h : Kept s lo) (hfull : s.serials = lo + GPRS_SNS) : ¬ s.Contains := by
  intro hc
  have hempty : s.vb.is_empty := by
    unfold StateArray.is_empty
    rw [h.ring.head, h.ring.tail, hfull]
    simp only [GPRS_SNS]
    omega
  have hlt : lo < s.serials := by simp only [GPRS_SNS] at hfull; omega
  exact hc.2 hempty _ (h.trimmed hlt)

theorem Kept.insert (h : Kept s lo) :
    s.vb.insert s.blk s.vb.head =
      if s.vb.head + 1 = s.vb.tail then .ok (false, s.vb.recycle)
      else if s.serials < lo + GPRS_SNS then .ok (true, s.vb.recycle.pushed s.blk)
      else .error .exit :=
  h.ring.insert h.trimmed

/-- The ring after an insertion. -/
theorem Kept.pushed (h : Kept s lo) (hroom : s.serials < lo + GPRS_SNS) :
    Kept { s with vb := s.vb.recycle.pushed s.blk, serials := s.serials + 1, sent := none } lo := by
  have hr := h.congr (h.ring.recycle_ring h.trimmed) none
  have hhead : s.vb.recycle.head = s.vb.head :=
    congrArg StateArray.head (h.ring.recycle_ring h.trimmed)
  have hblk : s.blk = { user_data_bsn := s.vb.recycle.head, serial := s.serials } := by
    rw [hhead]
    rfl
  rw [hblk]
  refine ⟨hr.ring.pushed hroom, hr.ring.pushed_trimmed hr.trimmed, h.past, ?_⟩
  intro n hlo hhi
  have hun : ∀ i, i = s.vb.recycle.head ∨ s.vb.recycle.unacked i →
      (s.vb.recycle.pushed { user_data_bsn := s.vb.recycle.head, serial := s.serials }).unacked i := by
    intro i hi
    unfold unacked
    rw [slot_pushed hr.ring.head_lt]
    split_ifs with heq
    · exact Or.inr rfl
    · exact hi.resolve_left heq
  rcases Nat.lt_succ_iff_lt_or_eq.1 hhi with hhi | rfl
  · exact (hr.done n hlo hhi).imp_left fun h => hun _ (Or.inr h)
  · exact Or.inl (hun _ (Or.inl hr.ring.head.symm))

theorem Kept.get_transmitted_blk (h : Kept s lo) :
    Kept { s with vb := s.vb.get_transmitted_blk.2, sent := s.vb.get_transmitted_blk.1 } lo := by
  rcases get_transmitted_blk_cases s.vb with ⟨-, hvb⟩ | ⟨i, -, hhanded⟩
  · exact h.congr hvb _
  · have hlen : i < s.vb.array.length := by
      rw [h.ring.length]
      exact h.ring.lt_SNS hhanded.unacked
    refine ⟨h.ring.handed hhanded, ?_, h.past, ?_⟩
    · intro hlt
      exact (hhanded.unacked_iff hlen).2 (h.trimmed hlt)
    · intro n hlo hhi
      exact (h.done n hlo hhi).imp_left (hhanded.unacked_iff hlen).2

/-- The blocks that leave the ring have been acknowledged. -/
theorem Kept.process_ack (h : Kept s lo) (ack : AckNack) :
    ∃ (b' : SendBuf) (acked : List Blk) (lo' : Nat),
      s.vb.process_ack ack = .ok (b'.forward_tail, acked) ∧ Marks s.vb b' acked ∧ lo ≤ lo' ∧
      (∀ n, lo ≤ n → n < lo' → ¬ b'.unacked (n % GPRS_SNS)) ∧
      ((b'.scan b'.scanned b'.tail false).2.1 = true →
        ∃ n, lo ≤ n ∧ n ≤ lo' ∧ b'.vs = n % GPRS_SNS) ∧
      Kept { s with
        vb := b'.forward_tail, sent := none, acked := acked.map Blk.serial ++ s.acked } lo' := by
  obtain ⟨b', acked, lo', heq, -, hmarks, -, hlo, hring', htrim, hpast, hmeet⟩ :=
    h.ring.process_ack h.trimmed ack
  have hgone : ∀ n, lo ≤ n → n < s.serials → ¬ b'.unacked (n % GPRS_SNS) →
      n ∈ acked.map Blk.serial ++ s.acked := by
    intro n hn1 hn2 hun
    rcases h.done n hn1 hn2 with hold | hold
    · rcases hmarks.slot (n % GPRS_SNS) with hs | ⟨-, -, blk, hblk, hpdu⟩
      · unfold unacked at hun hold
        rw [hs] at hun
        exact absurd hold hun
      · rw [h.ring.pdu hn1 hn2 hold] at hpdu
        refine List.mem_append_left _ (List.mem_map.2 ⟨blk, hblk, ?_⟩)
        rw [← Option.some.inj hpdu]
    · exact List.mem_append_right _ hold
  refine ⟨b', acked, lo', heq, hmarks, hlo, hpast, hmeet, hring', htrim, ?_, ?_⟩
  · intro n hn
    by_cases hlt : n < lo
    · exact List.mem_append_right _ (h.past n hlt)
    · have hhi := hring'.le
      exact hgone n (by omega) (by omega) (hpast n (by omega) hn)
  · intro n hn1 hn2
    by_cases hun : b'.unacked (n % GPRS_SNS)
    · exact Or.inl (unacked_forward_tail.2 hun)
    · exact Or.inr (hgone n (by omega) hn2 hun)

/-! ## Runs -/

/-- The ring of a run is not full. -/
def Holds (s : Sender) : Prop := ∃ lo, Kept s lo ∧ s.serials < lo + GPRS_SNS

theorem Holds.step {op : Op} (h : s.Holds) (hc : s.Apart op) (hs : s.step op = .ok s') : s'.Holds := by
  obtain ⟨lo, hk, hroom⟩ := h
  cases op with
  | insert =>
    unfold Sender.step at hs
    dsimp only at hs
    rw [hk.insert] at hs
    by_cases hfull : s.vb.head + 1 = s.vb.tail
    · rw [if_pos hfull] at hs
      obtain rfl := Except.ok.inj hs
      exact ⟨lo, hk.congr (hk.ring.recycle_ring hk.trimmed) none, hroom⟩
    · rw [if_neg hfull, if_pos hroom] at hs
      obtain rfl := Except.ok.inj hs
      refine ⟨lo, hk.pushed hroom, ?_⟩
      show s.serials + 1 < lo + GPRS_SNS
      unfold Apart at hc
      dsimp only at hc
      rw [hk.ring.head, hk.ring.tail] at hc hfull
      simp only [GPRS_SNS] at *
      omega
  | get_transmitted_blk =>
    obtain rfl := Except.ok.inj hs
    exact ⟨lo, hk.get_transmitted_blk, hroom⟩
  | process_ack ack =>
    obtain ⟨b', acked, lo', heq, -, hlo, -, -, hk'⟩ := hk.process_ack ack
    unfold Sender.step at hs
    dsimp only at hs
    rw [heq] at hs
    obtain rfl := Except.ok.inj hs
    exact ⟨lo', hk', by show s.serials < lo' + GPRS_SNS; omega⟩

theorem Holds.ne_error {op : Op} {e : Fault} (h : s.Holds) : s.step op ≠ .error e := by
  obtain ⟨lo, hk, hroom⟩ := h
  intro hs
  cases op with
  | insert =>
    unfold Sender.step at hs
    dsimp only at hs
    rw [hk.insert] at hs
    by_cases hfull : s.vb.head + 1 = s.vb.tail
    · rw [if_pos hfull] at hs
      cases hs
    · rw [if_neg hfull, if_pos hroom] at hs
      cases hs
  | get_transmitted_blk => cases hs
  | process_ack ack =>
    obtain ⟨b', acked, lo', heq, -⟩ := hk.process_ack ack
    unfold Sender.step at hs
    dsimp only at hs
    rw [heq] at hs
    cases hs

/-- An insertion where the ring wraps around fills it. -/
theorem Holds.apart {op : Op} (h : s.Holds) (hs : s.step op = .ok s') (hc : s'.Contains) :
    s.Apart op := by
  obtain ⟨lo, hk, hroom⟩ := h
  cases op with
  | insert =>
    rintro ⟨hhead, htail⟩
    unfold Sender.step at hs
    dsimp only at hs
    rw [hk.insert, if_neg (by rw [hhead, htail]; decide), if_pos hroom] at hs
    obtain rfl := Except.ok.inj hs
    refine (hk.pushed hroom).not_contains ?_ hc
    show s.serials + 1 = lo + GPRS_SNS
    rw [hk.ring.head] at hhead
    rw [hk.ring.tail] at htail
    have hle := hk.ring.le
    simp only [GPRS_SNS] at *
    omega
  | get_transmitted_blk => trivial
  | process_ack ack => trivial

theorem Holds.inserts {op : Op} (h : s.Holds) : s.Inserts op := by
  obtain ⟨lo, hk, hroom⟩ := h
  cases op with
  | insert =>
    have hring := hk.ring.recycle_ring hk.trimmed
    have hhead : s.vb.recycle.head = s.vb.head := congrArg StateArray.head hring
    unfold Inserts
    dsimp only
    rw [hk.insert]
    by_cases hfull : s.vb.head + 1 = s.vb.tail
    · rw [if_pos hfull]
      exact hring
    · rw [if_neg hfull, if_pos hroom]
      refine ⟨by rw [← hhead]; rfl, ?_⟩
      have hlen := (hk.congr hring none).ring.head_lt
      rw [slot_pushed hlen, if_pos hhead.symm, hhead]
  | get_transmitted_blk => trivial
  | process_ack ack => trivial

/-- Over a whole run, the ring keeps every block until it is acknowledged, says that it is empty only when
    it is, and takes or refuses a block as it should, exactly if no block is put in at the end of the array
    while the oldest one is at its start. -/
theorem run_contains_iff (ops : List Op) :
    (Run.Always step Contains .init ops ∧ Run.Along step Inserts .init ops) ↔
      Run.Along step Apart .init ops := by
  have hinit : Holds .init := ⟨0, Kept.init, by decide⟩
  have hiff : Run.Always step Contains .init ops ↔ Run.Along step Apart .init ops := by
    refine Run.always_iff_along (I := Holds) (D := fun _ _ => True) ?_ ?_ ?_ ?_ hinit
      (Run.Along.true _ _)
    · rintro s ⟨lo, hk, hroom⟩
      exact hk.contains hroom
    · intro s op s' h _ hs hc
      exact h.step hc hs
    · intro s op s' h _ hs hc
      exact h.apart hs hc
    · intro s op e h _ hs
      exact absurd hs h.ne_error
  constructor
  · intro h
    exact hiff.1 h.1
  · intro h
    refine ⟨hiff.2 h, ?_⟩
    exact Run.Along.of_inv (fun s op s' hI hc hs => hI.step hc hs) (fun s op hI _ => hI.inserts) hinit h

/-- The ring can be filled. -/
theorem exec_inserts (n : Nat) (hn : n ≤ GPRS_SNS) :
    ∃ s, Run.exec step .init (List.replicate n .insert) = .ok s ∧ Kept s 0 ∧ s.serials = n := by
  induction n with
  | zero => exact ⟨.init, rfl, Kept.init, rfl⟩
  | succ n ih =>
    obtain ⟨s, hs, hk, hserials⟩ := ih (by omega)
    have hroom : s.serials < 0 + GPRS_SNS := by omega
    have hfull : s.vb.head + 1 ≠ s.vb.tail := by
      rw [hk.ring.tail]
      exact Nat.succ_ne_zero _
    refine ⟨_, ?_, hk.pushed hroom, congrArg (· + 1) hserials⟩
    rw [List.replicate_succ', Run.exec_append hs]
    unfold Run.exec Sender.step
    dsimp only
    rw [hk.insert, if_neg hfull, if_pos hroom]
    rfl

/-- With 127 blocks in it, the ring takes another one and says that it is empty. -/
theorem last_slot_looks_empty :
    ¬ Run.Always step Contains .init (List.replicate 128 .insert) := by
  intro h
  obtain ⟨s, hs, hk, hserials⟩ := exec_inserts 128 (by decide)
  exact hk.not_contains hserials (h.exec hs)

/-! ## The window -/

/-- The blocks of the ring before `v` have been sent, the others have not. -/
structure Window (b : SendBuf) (lo hi v : Nat) : Prop where
  vs : b.vs = v % GPRS_SNS
  ge : lo ≤ v
  le : v ≤ hi
  width : v ≤ lo + GPRS_WS
  sent : ∀ n, lo ≤ n → n < v → (b.slot (n % GPRS_SNS)).state ≠ NACK
  unsent : ∀ n, v ≤ n → n < hi → (b.slot (n % GPRS_SNS)).state = NACK

/-- `forward_tail` does not move `vs`. -/
theorem Window.forward_tail {b : SendBuf} {lo lo' hi v : Nat} (h : Window b lo hi v)
    (hring : Ring b.forward_tail lo' hi) (hlo : lo ≤ lo')
    (hpast : ∀ n, lo ≤ n → n < lo' → ¬ b.unacked (n % GPRS_SNS))
    (hmeet : (b.scan b.scanned b.tail false).2.1 = true →
      ∃ n, lo ≤ n ∧ n ≤ lo' ∧ b.vs = n % GPRS_SNS) :
    Window b.forward_tail lo' hi v := by
  have hle : lo' ≤ v := by
    by_contra hlt
    rcases Nat.lt_or_eq_of_le h.le with hv | hv
    · exact hpast v h.ge (by omega) (Or.inr (h.unsent v (le_refl _) hv))
    · have := hring.le
      omega
  have hvs : b.forward_tail.vs = v % GPRS_SNS := by
    rw [forward_tail_vs]
    split
    · rename_i hflag
      obtain ⟨n, hn1, hn2, hn3⟩ := hmeet hflag
      have hlo'v : lo' = v := by
        have hvs := h.vs
        have hwidth := h.width
        simp only [GPRS_SNS, GPRS_WS] at *
        omega
      have htail : b.forward_tail.tail = v % GPRS_SNS := by rw [hring.tail, hlo'v]
      rcases Nat.lt_or_eq_of_le h.le with hv | hv
      · -- the first slot is the one looked for
        have hfirst : (List.range GPRS_WS).find? (fun i => decide
            ((b.slot ((b.forward_tail.tail + i) % GPRS_SNS)).state = NACK)) = some 0 := by
          have hrange : List.range GPRS_WS = 0 :: (List.range' 1 63) := by decide
          rw [hrange, List.find?_cons_of_pos]
          rw [htail, Nat.add_zero, Nat.mod_mod]
          exact decide_eq_true (h.unsent v (le_refl _) hv)
        rw [hfirst]
        dsimp only
        rw [htail, Nat.add_zero, Nat.mod_mod]
      · -- there is none to look for
        have hnone : (List.range GPRS_WS).find? (fun i => decide
            ((b.slot ((b.forward_tail.tail + i) % GPRS_SNS)).state = NACK)) = none := by
          rw [List.find?_eq_none]
          intro i _ hi
          have hun : b.forward_tail.unacked ((b.forward_tail.tail + i) % GPRS_SNS) :=
            unacked_forward_tail.2 (Or.inr (of_decide_eq_true hi))
          obtain ⟨n, hn1, hn2, -, -⟩ := hring.held _ hun
          omega
        rw [hnone]
        exact htail
    · exact h.vs
  refine ⟨hvs, hle, h.le, ?_, ?_, ?_⟩
  · exact h.width.trans (Nat.add_le_add_right hlo _)
  · intro n hn1 hn2
    rw [slot_forward_tail]
    exact h.sent n (hlo.trans hn1) hn2
  · intro n hn1 hn2
    rw [slot_forward_tail]
    exact h.unsent n hn1 hn2

/-- An acknowledgement does not reach what has not been sent. -/
theorem Window.marks {b b' : SendBuf} {lo hi v : Nat} {acked : List Blk} (h : Window b lo hi v)
    (hm : Marks b b' acked) : Window b' lo hi v := by
  refine ⟨hm.vs.trans h.vs, h.ge, h.le, h.width, ?_, ?_⟩
  · intro n hn1 hn2
    rcases hm.slot (n % GPRS_SNS) with hs | ⟨-, hs, -⟩
    · rw [hs]
      exact h.sent n hn1 hn2
    · rw [hs]
      decide
  · intro n hn1 hn2
    have hst := h.unsent n hn1 hn2
    rcases hm.slot (n % GPRS_SNS) with hs | ⟨hs, -, -⟩
    · rw [hs]
      exact hst
    · rw [hs] at hst
      exact absurd hst (by decide)

/-- The block that is put in has not been sent. -/
theorem Window.pushed {b : SendBuf} {lo hi v : Nat} {e : Blk} (h : Window b lo hi v)
    (hring : Ring b lo hi) (hroom : hi < lo + GPRS_SNS) : Window (b.pushed e) lo (hi + 1) v := by
  have hslot : ∀ n, lo ≤ n → n < hi → (b.pushed e).slot (n % GPRS_SNS) = b.slot (n % GPRS_SNS) := by
    intro n hn1 hn2
    rw [slot_pushed hring.head_lt, if_neg]
    rw [hring.head]
    simp only [GPRS_SNS] at *
    omega
  refine ⟨h.vs, h.ge, h.le.trans (Nat.le_succ _), h.width, ?_, ?_⟩
  · intro n hn1 hn2
    rw [hslot n hn1 (lt_of_lt_of_le hn2 h.le)]
    exact h.sent n hn1 hn2
  · intro n hn1 hn2
    rcases Nat.lt_succ_iff_lt_or_eq.1 hn2 with hn2 | rfl
    · rw [hslot n (h.ge.trans hn1) hn2]
      exact h.unsent n hn1 hn2
    · rw [slot_pushed hring.head_lt, if_pos hring.head.symm]

/-- A block that has been sent and not acknowledged is before `v`. -/
theorem Window.pending {b : SendBuf} {lo hi v i : Nat} (h : Window b lo hi v) (hring : Ring b lo hi)
    (hi' : (b.slot i).state = PENDING_ACK) : ∃ n, lo ≤ n ∧ n < v ∧ n % GPRS_SNS = i := by
  obtain ⟨n, hn1, hn2, hn3, -⟩ := hring.held i (Or.inl hi')
  refine ⟨n, hn1, ?_, hn3⟩
  by_contra hge
  have hst := h.unsent n (by omega) hn2
  rw [hn3, hi'] at hst
  exact absurd hst (by decide)

/-- A block of the window has been handed out, or none, and the search goes on from the oldest block. It
    may also go on from `vs` when all blocks have been sent. -/
structure Search (b : SendBuf) (sent : Option Blk) (lo hi v : Nat) : Prop where
  window : Window b lo hi v
  cur : b.cur_sent_pending_acked_bsn < GPRS_SNS
  from_oldest : b.va = b.tail ∨ v = hi ∧ b.va = b.vs ∧ b.cur_sent_pending_acked_bsn = b.vs
  near : ∀ blk ∈ sent, ∃ n, lo ≤ n ∧ n < lo + GPRS_WS ∧ blk.user_data_bsn = n % GPRS_SNS

/-- A block that waits for its acknowledgement is handed out again. -/
theorem Window.transmit_pending {b : SendBuf} {lo hi v : Nat} (h : Window b lo hi v)
    (hring : Ring b lo hi) (hpend : (b.slot b.cur_sent_pending_acked_bsn).state = PENDING_ACK)
    (hva : b.va = b.tail) : Search b.transmit_pending.2 b.transmit_pending.1 lo hi v := by
  have harray : b.transmit_pending.2.array = b.array := by
    apply StateArray.put_slot
    rw [← hpend]
  have hslot : ∀ i, b.transmit_pending.2.slot i = b.slot i := by
    intro i
    unfold StateArray.slot
    rw [harray]
  refine ⟨⟨h.vs, h.ge, h.le, h.width, ?_, ?_⟩, ?_, Or.inl hva, ?_⟩
  · intro n hn1 hn2
    rw [hslot]
    exact h.sent n hn1 hn2
  · intro n hn1 hn2
    rw [hslot]
    exact h.unsent n hn1 hn2
  · show (if (b.cur_sent_pending_acked_bsn + 1) % GPRS_SNS = (b.vs + 1) % GPRS_SNS then b.va
      else (b.cur_sent_pending_acked_bsn + 1) % GPRS_SNS) < GPRS_SNS
    split_ifs
    · rw [hva, hring.tail]
      exact Nat.mod_lt _ (by decide)
    · exact Nat.mod_lt _ (by decide)
  · intro blk hblk
    obtain ⟨n, hn1, hn2, hn3⟩ := h.pending hring hpend
    have hpdu := hring.pdu hn1 (lt_of_lt_of_le hn2 h.le) (hn3 ▸ Or.inl hpend)
    rw [hn3] at hpdu
    have hblk' : (b.slot b.cur_sent_pending_acked_bsn).upper_layer_pdu = some blk := hblk
    rw [hpdu] at hblk'
    refine ⟨n, hn1, lt_of_lt_of_le hn2 h.width, ?_⟩
    rw [← Option.some.inj hblk', hn3]

/-- How the loop that looks for a sent block ends. -/
theorem find_pending_cases (b : SendBuf) (is : List Nat) :
    (∃ i ∈ is, b.find_pending is = { b with
        cur_sent_pending_acked_bsn := (b.cur_sent_pending_acked_bsn + i) % GPRS_SNS } ∧
      (b.slot ((b.cur_sent_pending_acked_bsn + i) % GPRS_SNS)).state = PENDING_ACK) ∨
    b.find_pending is = { b with cur_sent_pending_acked_bsn := b.va } ∨
    b.find_pending is = b ∧ ∀ i ∈ is,
      (b.cur_sent_pending_acked_bsn + i) % GPRS_SNS ≠ (b.vs + 1) % GPRS_SNS ∧
      (b.slot ((b.cur_sent_pending_acked_bsn + i) % GPRS_SNS)).state ≠ PENDING_ACK := by
  induction is with
  | nil => exact Or.inr (Or.inr ⟨rfl, by simp⟩)
  | cons i is ih =>
    unfold find_pending
    dsimp only
    split_ifs with h1 h2
    · exact Or.inr (Or.inl rfl)
    · exact Or.inl ⟨i, List.mem_cons_self, rfl, h2⟩
    · rcases ih with ⟨k, hk, heq, hst⟩ | heq | ⟨heq, hall⟩
      · exact Or.inl ⟨k, List.mem_cons_of_mem _ hk, heq, hst⟩
      · exact Or.inr (Or.inl heq)
      · refine Or.inr (Or.inr ⟨heq, ?_⟩)
        intro k hk
        rcases List.mem_cons.1 hk with rfl | hk
        · exact ⟨h1, h2⟩
        · exact hall k hk

/-- A slot of the window is before `vs`. -/
theorem Window.within {b : SendBuf} {lo hi v c : Nat} (h : Window b lo hi v) (hring : Ring b lo hi)
    (hc : c < GPRS_SNS) (hw : b.within_cur_window c) :
    c = lo % GPRS_SNS ∨ ∃ n, lo ≤ n ∧ n < v ∧ n % GPRS_SNS = c := by
  have hvs := h.vs
  have hge := h.ge
  have hwidth := h.width
  have htail := hring.tail
  unfold within_cur_window at hw
  dsimp only at hw
  simp only [GPRS_SNS, GPRS_WS] at *
  by_cases h0 : c = lo % 128
  · exact Or.inl h0
  · refine Or.inr ⟨lo + (c + 128 - lo % 128) % 128, by omega, ?_, by omega⟩
    split_ifs at hw <;> omega

/-- The oldest block of a window that is not empty waits for its acknowledgement. -/
theorem Kept.oldest_pending {v : Nat} (h : Kept s lo) (hw : Window s.vb lo s.serials v) (hlt : lo < v) :
    (s.vb.slot s.vb.tail).state = PENDING_ACK := by
  have hun := h.trimmed (lt_of_lt_of_le hlt hw.le)
  rw [h.ring.tail]
  exact hun.resolve_right (hw.sent lo (le_refl _) hlt)

/-- The slot that the search starts at is in the window. -/
theorem Kept.search_start {v : Nat} (h : Kept s lo) (hw : Window s.vb lo s.serials v)
    (hcur : s.vb.cur_sent_pending_acked_bsn < GPRS_SNS) (hva : s.vb.va = s.vb.tail) :
    ∃ c, (if ¬ s.vb.within_cur_window s.vb.cur_sent_pending_acked_bsn then
        { s.vb with cur_sent_pending_acked_bsn := s.vb.va } else s.vb) =
        { s.vb with cur_sent_pending_acked_bsn := c } ∧ c < GPRS_SNS ∧ (c = s.vb.tail ∨
        ∃ n, lo ≤ n ∧ n < v ∧ n % GPRS_SNS = c ∧ c = s.vb.cur_sent_pending_acked_bsn) := by
  by_cases hwithin : s.vb.within_cur_window s.vb.cur_sent_pending_acked_bsn
  · rw [if_neg (not_not.2 hwithin)]
    refine ⟨s.vb.cur_sent_pending_acked_bsn, rfl, hcur, ?_⟩
    rcases hw.within h.ring hcur hwithin with hc | ⟨n, hn1, hn2, hn3⟩
    · exact Or.inl (hc.trans h.ring.tail.symm)
    · exact Or.inr ⟨n, hn1, hn2, hn3, rfl⟩
  · rw [if_pos hwithin]
    refine ⟨s.vb.va, rfl, ?_, Or.inl hva⟩
    rw [hva, h.ring.tail]
    exact Nat.mod_lt _ (by decide)

/-- A search that goes through a full window, with a block behind it, and finds nothing has started in a
    hole. -/
theorem Kept.hole {v c : Nat} (h : Kept s lo) (hw : Window s.vb lo s.serials v) (hlt : lo < v)
    (hvw : v = lo + GPRS_WS) (hnew : v ≠ s.serials)
    (hc : c = s.vb.tail ∨ ∃ n, lo ≤ n ∧ n < v ∧ n % GPRS_SNS = c ∧ c = s.vb.cur_sent_pending_acked_bsn)
    (hun : (s.vb.slot c).state ≠ PENDING_ACK)
    (hall : ∀ i ∈ List.range GPRS_WS, (c + i) % GPRS_SNS ≠ (s.vb.vs + 1) % GPRS_SNS ∧
      (s.vb.slot ((c + i) % GPRS_SNS)).state ≠ PENDING_ACK) : s.Hole := by
  have hvs := hw.vs
  have htail := h.ring.tail
  have hfirst := h.oldest_pending hw hlt
  -- the search has gone through all of the window but its first block
  have hc1 : c = (lo + 1) % GPRS_SNS ∧ c = s.vb.cur_sent_pending_acked_bsn := by
    rcases hc with rfl | ⟨n, hn1, hn2, hn3, hceq⟩
    · exact absurd hfirst hun
    · refine ⟨?_, hceq⟩
      have hnlo : n ≠ lo := by
        rintro rfl
        refine hun ?_
        rw [← hn3, ← htail]
        exact hfirst
      by_contra hne
      have hend := (hall (v + 1 - n) (List.mem_range.2 (by
        simp only [GPRS_SNS, GPRS_WS] at *
        rcases Nat.lt_or_ge n (lo + 2) with h2 | h2
        · exact absurd (by rw [← hn3, show n = lo + 1 by omega]) hne
        · omega))).1
      apply hend
      rw [← hn3, hvs]
      simp only [GPRS_SNS]
      omega
  refine ⟨?_, ?_, ?_, ?_⟩
  · rw [hvs, htail, hvw, Nat.mod_add_mod]
  · rw [← hc1.2, hc1.1, htail, Nat.mod_add_mod]
  · intro i hi
    rw [List.mem_range'_1] at hi
    have hst := (hall (i - 1) (List.mem_range.2 (by simp only [GPRS_WS] at *; omega))).2
    have hidx : (s.vb.tail + i) % GPRS_SNS = (c + (i - 1)) % GPRS_SNS := by
      rw [htail, hc1.1]
      simp only [GPRS_SNS]
      omega
    rw [hidx]
    exact hst
  · rw [hvs]
    exact hw.unsent v (le_refl _) (lt_of_le_of_ne hw.le hnew)

/-- With the search going on from the oldest block and nothing new to send, a sent block is handed out if
    there is one, unless the search starts in a hole. -/
theorem Kept.get_pending_blk {v : Nat} (h : Kept s lo) (hw : Window s.vb lo s.serials v)
    (hcur : s.vb.cur_sent_pending_acked_bsn < GPRS_SNS) (hva : s.vb.va = s.vb.tail)
    (hv : v = s.serials ∨ v = lo + GPRS_WS) (hhole : ¬ s.Hole) :
    Search s.vb.get_pending_blk.2 s.vb.get_pending_blk.1 lo s.serials v := by
  have hring := h.ring
  have hempty : lo = v → ∀ i, ¬ s.vb.unacked i := by
    intro heq i hi
    obtain ⟨n, hn1, hn2, -, -⟩ := hring.held i hi
    simp only [GPRS_WS] at hv
    omega
  obtain ⟨c, hstart, hc, hcw⟩ := h.search_start hw hcur hva
  unfold SendBuf.get_pending_blk
  dsimp only
  rw [hstart]
  have hring1 : ∀ c, Ring { s.vb with cur_sent_pending_acked_bsn := c } lo s.serials :=
    fun c => hring.congr rfl
  have hw1 : ∀ c, Window { s.vb with cur_sent_pending_acked_bsn := c } lo s.serials v :=
    fun c => ⟨hw.vs, hw.ge, hw.le, hw.width, hw.sent, hw.unsent⟩
  split_ifs with hun hpend
  · -- the search ends where it starts
    refine (hw1 c).transmit_pending (hring1 c) ?_ hva
    rcases hcw with hc' | ⟨n, hn1, hn2, hn3, -⟩
    · rw [show ({ s.vb with cur_sent_pending_acked_bsn := c } : SendBuf).cur_sent_pending_acked_bsn =
        s.vb.tail from hc']
      refine h.oldest_pending hw (lt_of_le_of_ne hw.ge ?_)
      intro heq
      exact hempty heq _ hun
    · have hns := hw.sent n hn1 hn2
      rw [hn3] at hns
      exact hun.resolve_right hns
  · -- the search has found a sent block
    have hf : ∃ c', SendBuf.find_pending { s.vb with cur_sent_pending_acked_bsn := c }
        (List.range GPRS_WS) = { s.vb with cur_sent_pending_acked_bsn := c' } := by
      rcases find_pending_cases { s.vb with cur_sent_pending_acked_bsn := c } (List.range GPRS_WS) with
        ⟨i, -, heq, -⟩ | heq | ⟨heq, -⟩
      · exact ⟨_, heq⟩
      · exact ⟨_, heq⟩
      · exact ⟨_, heq⟩
    obtain ⟨c', hf⟩ := hf
    rw [hf] at hpend ⊢
    exact (hw1 c').transmit_pending (hring1 c') hpend hva
  · -- nothing is handed out: there is no sent block, or none behind the window
    rcases find_pending_cases { s.vb with cur_sent_pending_acked_bsn := c } (List.range GPRS_WS) with
      ⟨i, -, heq, hst⟩ | heq | ⟨heq, hall⟩
    · rw [heq] at hpend
      exact absurd hst hpend
    · rw [heq] at hpend ⊢
      have hlo : lo = v := by
        by_contra hne
        apply hpend
        show (s.vb.slot s.vb.va).state = PENDING_ACK
        rw [hva]
        exact h.oldest_pending hw (lt_of_le_of_ne hw.ge hne)
      refine ⟨⟨hw.vs, hw.ge, hw.le, hw.width, hw.sent, hw.unsent⟩, ?_, Or.inl ?_, by simp⟩
      · show s.vb.vs < GPRS_SNS
        rw [hw.vs]
        exact Nat.mod_lt _ (by decide)
      · show s.vb.vs = s.vb.tail
        rw [hw.vs, hring.tail, hlo]
    · rw [heq] at hpend ⊢
      have hvs_lt : s.vb.vs < GPRS_SNS := by
        rw [hw.vs]
        exact Nat.mod_lt _ (by decide)
      refine ⟨⟨hw.vs, hw.ge, hw.le, hw.width, hw.sent, hw.unsent⟩, hvs_lt, ?_, by simp⟩
      show s.vb.vs = s.vb.tail ∨ v = s.serials ∧ s.vb.vs = s.vb.vs ∧ s.vb.vs = s.vb.vs
      by_cases hlo : lo = v
      · left
        rw [hw.vs, hring.tail, hlo]
      · refine Or.inr ⟨?_, rfl, rfl⟩
        by_contra hnew
        exact hhole (h.hole hw (lt_of_le_of_ne hw.ge hlo) (hv.resolve_left hnew) hnew hcw
          (fun hpending => hun (Or.inl hpending)) hall)

/-- There is nothing to hand out while the search goes on from the end of what has been sent. -/
theorem Window.get_pending_blk_none {b : SendBuf} {lo hi : Nat} (h : Window b lo hi hi)
    (hring : Ring b lo hi) (hva : b.va = b.vs) (hcur : b.cur_sent_pending_acked_bsn = b.vs) :
    b.get_pending_blk = (none, b) := by
  obtain ⟨a, vs, va, cur⟩ := b
  obtain rfl : va = vs := hva
  obtain rfl : cur = va := hcur
  have hroom : hi < lo + GPRS_SNS := by
    have hwidth := h.width
    simp only [GPRS_SNS, GPRS_WS] at *
    omega
  have hvs : cur = hi % GPRS_SNS := h.vs
  have hfree : a.slot cur = .init := by
    rw [hvs, ← hring.head]
    exact hring.free_head hroom
  have hpend : (a.slot cur).state ≠ PENDING_ACK := by
    rw [hfree]
    decide
  have hnack : (a.slot cur).state ≠ NACK := by
    rw [hfree]
    decide
  have hun : ¬ SendBuf.unacked ⟨a, cur, cur, cur⟩ cur := not_or.2 ⟨hpend, hnack⟩
  have hrange : List.range GPRS_WS = 0 :: 1 :: List.range' 2 62 := by decide
  have hfind : SendBuf.find_pending ⟨a, cur, cur, cur⟩ (List.range GPRS_WS) = ⟨a, cur, cur, cur⟩ := by
    have h0 : (cur + 0) % GPRS_SNS = cur := by
      rw [hvs]
      exact Nat.mod_mod _ _
    have h1 : cur ≠ (cur + 1) % GPRS_SNS := by
      rw [hvs]
      simp only [GPRS_SNS]
      omega
    rw [hrange]
    unfold find_pending
    dsimp only
    rw [h0, if_neg h1, if_neg hpend]
    exact if_pos rfl
  unfold SendBuf.get_pending_blk
  dsimp only
  rw [ite_self]
  rw [if_neg hun, hfind]
  exact if_neg hpend

/-- Where `vs` is in the window of the oldest block. -/
theorem Window.window_test {b : SendBuf} {lo hi v : Nat} (h : Window b lo hi v)
    (hring : Ring b lo hi) (hva : b.va = b.tail) :
    b.window_test = if v < lo + GPRS_WS then 1 else 2 := by
  have hvs := h.vs
  have htail := hring.tail
  have hge := h.ge
  have hwidth := h.width
  unfold SendBuf.window_test
  by_cases hv : v < lo + GPRS_WS
  · rw [if_pos hv]
    split_ifs <;> simp only [GPRS_SNS, GPRS_WS] at * <;> omega
  · rw [if_neg hv]
    split_ifs <;> simp only [GPRS_SNS, GPRS_WS] at * <;> omega

/-- What the module is between two calls. -/
def Searches (s : Sender) : Prop := ∃ lo v, Kept s lo ∧ Search s.vb s.sent lo s.serials v

theorem Searches.get_transmitted_blk (h : s.Searches) (hhole : ¬ s.Hole) :
    Searches { s with vb := s.vb.get_transmitted_blk.2, sent := s.vb.get_transmitted_blk.1 } := by
  obtain ⟨lo, v, hk, hw, hcur, hfrom, hnear⟩ := h
  refine ⟨lo, ?_⟩
  suffices hs : ∃ v', Search s.vb.get_transmitted_blk.2 s.vb.get_transmitted_blk.1 lo s.serials v' by
    obtain ⟨v', hs⟩ := hs
    exact ⟨v', hk.get_transmitted_blk, hs⟩
  have hunsent : v = s.serials → (s.vb.slot s.vb.vs).state ≠ NACK := by
    intro hv hst
    have hroom : s.serials < lo + GPRS_SNS := by
      have hwidth := hw.width
      simp only [GPRS_SNS, GPRS_WS] at *
      omega
    rw [hw.vs, hv, ← hk.ring.head] at hst
    exact not_unacked_of_init (hk.ring.free_head hroom) (Or.inr hst)
  unfold SendBuf.get_transmitted_blk
  by_cases hva : s.vb.va = s.vb.tail
  · have htest := hw.window_test hk.ring hva
    split_ifs with h1 h2
    · -- the next block is sent
      have hst := h1.2
      have hlt : v < lo + GPRS_WS := by
        by_contra hge
        rw [htest, if_neg hge] at h1
        exact absurd h1.1 (by decide)
      have hnew : v < s.serials := lt_of_le_of_ne hw.le fun hv => hunsent hv hst
      have hlen : s.vb.vs < s.vb.array.length := by
        rw [hk.ring.length, hw.vs]
        exact Nat.mod_lt _ (by decide)
      have hslot : ∀ i, (SendBuf.transmit { s.vb with vs := (s.vb.vs + 1) % GPRS_SNS } s.vb.vs).2.slot i =
          if i = s.vb.vs then { s.vb.slot s.vb.vs with state := PENDING_ACK } else s.vb.slot i :=
        fun i => StateArray.slot_put hlen
      refine ⟨v + 1, ⟨?_, hw.ge.trans (Nat.le_succ v), hnew, hlt, ?_, ?_⟩, hcur, Or.inl hva, ?_⟩
      · show (s.vb.vs + 1) % GPRS_SNS = (v + 1) % GPRS_SNS
        rw [hw.vs, Nat.mod_add_mod]
      · intro n hn1 hn2
        rw [hslot]
        split_ifs with heq
        · show PENDING_ACK ≠ NACK
          decide
        · rcases Nat.lt_succ_iff_lt_or_eq.1 hn2 with hn2 | rfl
          · exact hw.sent n hn1 hn2
          · exact absurd hw.vs.symm heq
      · intro n hn1 hn2
        have hroom := hk.ring.room
        have hge := hw.ge
        rw [hslot, if_neg (by rw [hw.vs]; simp only [GPRS_SNS] at *; omega)]
        exact hw.unsent n (Nat.le_of_succ_le hn1) hn2
      · intro blk hblk
        have hpdu := hk.ring.pdu hw.ge hnew (hw.vs ▸ Or.inr hst)
        have hblk' : (s.vb.slot s.vb.vs).upper_layer_pdu = some blk := hblk
        rw [hw.vs, hpdu] at hblk'
        exact ⟨v, hw.ge, hlt, by rw [← Option.some.inj hblk']⟩
    · refine ⟨v, hk.get_pending_blk hw hcur hva ?_ hhole⟩
      by_contra hv
      rw [not_or] at hv
      have hle := hw.le
      have hwidth := hw.width
      refine h1 ⟨htest.trans (if_pos (by omega)), ?_⟩
      rw [hw.vs]
      exact hw.unsent v (le_refl _) (by omega)
    · exact ⟨v, hw, hcur, hfrom, by simp⟩
  · -- all blocks have been sent
    obtain ⟨hv, hva', hcur'⟩ := hfrom.resolve_left hva
    subst hv
    rw [if_neg (fun h => hunsent rfl h.2), hw.get_pending_blk_none hk.ring hva' hcur']
    refine ⟨s.serials, ?_⟩
    split_ifs
    · exact ⟨hw, hcur, hfrom, by simp⟩
    · exact ⟨hw, hcur, hfrom, by simp⟩

theorem Searches.step {op : Op} (h : s.Searches) (hc : s.NoHole op) (hs : s.step op = .ok s') :
    s'.Searches := by
  cases op with
  | insert =>
    obtain ⟨lo, v, hk, hw, hcur, -, -⟩ := h
    obtain ⟨lo', hlo, hring', -, hpast, hmeet⟩ := hk.ring.forward_tail fun _ => hk.trimmed
    have hw' := hw.forward_tail hring' hlo hpast hmeet
    have hlo' : lo' = lo := by
      by_contra hne
      have hle := hring'.le
      exact hpast lo (le_refl _) (by omega) (hk.trimmed (by omega))
    subst hlo'
    rw [← hk.ring.recycle] at hw' hring'
    have hcur' : s.vb.recycle.cur_sent_pending_acked_bsn < GPRS_SNS := by
      rw [hk.ring.recycle, forward_tail_cur]
      exact hcur
    have hva : s.vb.recycle.va = s.vb.recycle.tail := by
      rw [hk.ring.recycle]
      exact forward_tail_va _
    unfold Sender.step at hs
    dsimp only at hs
    rw [hk.insert] at hs
    split_ifs at hs with hfull hroom
    · obtain rfl := Except.ok.inj hs
      exact ⟨lo', v, hk.congr (hk.ring.recycle_ring hk.trimmed) none, hw', hcur', Or.inl hva, by simp⟩
    · obtain rfl := Except.ok.inj hs
      exact ⟨lo', v, hk.pushed hroom, hw'.pushed hring' hroom, hcur', Or.inl hva, by simp⟩
  | get_transmitted_blk =>
    obtain rfl := Except.ok.inj hs
    exact h.get_transmitted_blk hc
  | process_ack ack =>
    obtain ⟨lo, v, hk, hw, hcur, -, -⟩ := h
    obtain ⟨b', acked, lo', heq, hmarks, hlo, hpast, hmeet, hk'⟩ := hk.process_ack ack
    unfold Sender.step at hs
    dsimp only at hs
    rw [heq] at hs
    obtain rfl := Except.ok.inj hs
    refine ⟨lo', v, hk', (hw.marks hmarks).forward_tail hk'.ring hlo hpast hmeet, ?_,
      Or.inl (forward_tail_va _), by simp⟩
    rw [forward_tail_cur, hmarks.cur]
    exact hcur

theorem Searches.init : Searches .init := by
  refine ⟨0, 0, Kept.init, ⟨rfl, le_refl _, le_refl _, Nat.zero_le _, ?_, ?_⟩, by decide, Or.inl rfl, ?_⟩
  · intro n _ hn
    exact absurd hn (Nat.not_lt_zero n)
  · intro n _ hn
    exact absurd hn (Nat.not_lt_zero n)
  · intro blk hblk
    exact absurd hblk (Option.not_mem_none _)

/-- The oldest unacknowledged block is the one at the tail. -/
theorem Kept.oldest (h : Kept s lo) {o : Blk} (ho : o ∈ s.oldest) :
    o.user_data_bsn = lo % GPRS_SNS := by
  have hmem := List.argmin_mem ho
  obtain ⟨i, hi, hpdu⟩ := List.mem_filterMap.1 hmem
  have hun : s.vb.unacked i := of_decide_eq_true (List.mem_filter.1 hi).2
  obtain ⟨n, hn1, hn2, hn3, hn4⟩ := h.ring.held i hun
  rw [hpdu] at hn4
  obtain rfl := Option.some.inj hn4
  have hlt : lo < s.serials := lt_of_le_of_lt hn1 hn2
  have hold := h.trimmed hlt
  have hfirst : ({ user_data_bsn := lo % GPRS_SNS, serial := lo } : Blk) ∈
      ((List.range GPRS_SNS).filter fun i => s.vb.unacked i).filterMap fun i =>
        (s.vb.slot i).upper_layer_pdu := by
    refine List.mem_filterMap.2 ⟨lo % GPRS_SNS, List.mem_filter.2 ⟨?_, decide_eq_true hold⟩, ?_⟩
    · exact List.mem_range.2 (Nat.mod_lt _ (by decide))
    · exact h.ring.pdu (le_refl _) hlt hold
  have hle : n ≤ lo := List.le_of_mem_argmin hfirst ho
  show i = lo % GPRS_SNS
  rw [← hn3, le_antisymm hle hn1]

theorem Searches.inWindow (h : s.Searches) : s.InWindow := by
  obtain ⟨lo, v, hk, -, -, -, hnear⟩ := h
  intro blk hblk o ho
  obtain ⟨n, hn1, hn2, hn3⟩ := hnear blk hblk
  rw [hk.oldest ho, hn3]
  simp only [GPRS_SNS, GPRS_WS] at *
  omega

/-- **Send window.** In every run in which no search for a block starts in a hole, each block that is handed
    out is less than 64 ahead of the oldest one that has not been acknowledged. -/
theorem run_inWindow (ops : List Op) (h : Run.Along step NoHole .init ops) :
    Run.Always step InWindow .init ops := by
  have hrun : Run.Always step Searches .init ops :=
    Run.Always.of_along (fun s op s' hI hc hs => hI.step hc hs) Searches.init h
  exact hrun.mono fun s hs => hs.inWindow

/-- A run in which all but one of three blocks are acknowledged. -/
theorem run_inWindow_three :
    Run.Along step NoHole .init [.insert, .insert, .insert, .get_transmitted_blk,
      .get_transmitted_blk, .process_ack ⟨2, [1]⟩, .get_transmitted_blk] ∧
    Run.Always step InWindow .init [.insert, .insert, .insert, .get_transmitted_blk,
      .get_transmitted_blk, .process_ack ⟨2, [1]⟩, .get_transmitted_blk] := by
  have h : Run.Along step NoHole .init [.insert, .insert, .insert, .get_transmitted_blk,
      .get_transmitted_blk, .process_ack ⟨2, [1]⟩, .get_transmitted_blk] := by decide +kernel
  exact ⟨h, run_inWindow _ h⟩

/-! ## A hole -/

/-- A sender of which `sent` blocks have been sent, `unsent` have not, and none has been acknowledged. -/
def fresh (sent unsent : Nat) : Sender where
  vb :=
    { array := ((List.range (sent + unsent)).map fun i =>
        { state := if i < sent then PENDING_ACK else NACK
          bsn := i
          upper_layer_pdu := some { user_data_bsn := i, serial := i } }) ++
          List.replicate (GPRS_SNS - (sent + unsent)) .init
      head := sent + unsent
      tail := 0
      vs := sent
      va := 0
      cur_sent_pending_acked_bsn := 0 }
  serials := sent + unsent
  sent := if sent = 0 then none else some { user_data_bsn := sent - 1, serial := sent - 1 }
  acked := []

theorem slot_fresh {sent unsent : Nat} (i : Nat) :
    (fresh sent unsent).vb.slot i =
      if i < sent + unsent then
        { state := if i < sent then PENDING_ACK else NACK
          bsn := i
          upper_layer_pdu := some { user_data_bsn := i, serial := i } }
      else .init := by
  unfold StateArray.slot fresh
  dsimp only
  rw [List.getD_eq_getElem?_getD]
  by_cases h : i < sent + unsent
  · rw [if_pos h, List.getElem?_append_left (by simpa using h), List.getElem?_map,
      List.getElem?_range h]
    rfl
  · rw [if_neg h, List.getElem?_append_right (by simpa using h), List.getElem?_replicate]
    split_ifs <;> rfl

theorem unacked_fresh {sent unsent i : Nat} :
    (fresh sent unsent).vb.unacked i ↔ i < sent + unsent := by
  unfold unacked
  rw [slot_fresh]
  by_cases h : i < sent + unsent
  · rw [if_pos h]
    refine ⟨fun _ => h, fun _ => ?_⟩
    by_cases hs : i < sent
    · exact Or.inl (if_pos hs)
    · exact Or.inr (if_neg hs)
  · rw [if_neg h]
    exact ⟨fun hst => absurd hst (by decide), fun hlt => absurd hlt h⟩

theorem kept_fresh {sent unsent : Nat} (h : sent + unsent < GPRS_SNS) :
    Kept (fresh sent unsent) 0 := by
  refine ⟨⟨?_, rfl, ?_, Nat.zero_le _, ?_, ?_, ?_⟩, ?_, ?_, ?_⟩
  · simp only [fresh, List.length_append, List.length_map, List.length_range, List.length_replicate]
    omega
  · exact (Nat.mod_eq_of_lt h).symm
  · show sent + unsent ≤ 0 + GPRS_SNS
    omega
  · intro i hi
    have hlt := unacked_fresh.1 hi
    refine ⟨i, Nat.zero_le i, hlt, Nat.mod_eq_of_lt (by omega), ?_⟩
    rw [slot_fresh, if_pos hlt]
  · intro i hi
    rw [slot_fresh, if_neg fun hlt => hi (unacked_fresh.2 hlt)]
  · intro hlt
    exact unacked_fresh.2 hlt
  · intro n hn
    exact absurd hn (Nat.not_lt_zero n)
  · intro n _ hn
    have hlt : n < sent + unsent := hn
    left
    rw [Nat.mod_eq_of_lt (by omega)]
    exact unacked_fresh.2 hlt

theorem window_fresh {sent unsent : Nat} (h : sent + unsent < GPRS_SNS) (hw : sent ≤ GPRS_WS) :
    Window (fresh sent unsent).vb 0 (sent + unsent) sent := by
  refine ⟨?_, Nat.zero_le _, Nat.le_add_right _ _, by omega, ?_, ?_⟩
  · show sent = sent % GPRS_SNS
    exact (Nat.mod_eq_of_lt (by omega)).symm
  · intro n _ hn
    rw [Nat.mod_eq_of_lt (by omega), slot_fresh, if_pos (by omega), if_pos hn]
    show PENDING_ACK ≠ NACK
    decide
  · intro n hn1 hn2
    rw [Nat.mod_eq_of_lt (by omega), slot_fresh, if_pos hn2, if_neg (by omega)]

theorem fresh_insert {unsent : Nat} (h : unsent + 1 < GPRS_SNS) :
    step (fresh 0 unsent) .insert = .ok (fresh 0 (unsent + 1)) := by
  have hk : Kept (fresh 0 unsent) 0 := kept_fresh (by omega)
  have hw : Window (fresh 0 unsent).vb 0 (0 + unsent) 0 := window_fresh (by omega) (by decide)
  obtain ⟨lo', hlo, hring', -, hpast, hmeet⟩ := hk.ring.forward_tail fun _ => hk.trimmed
  have hw' := hw.forward_tail hring' hlo hpast hmeet
  obtain rfl : lo' = 0 := Nat.le_zero.1 hw'.ge
  have hfwd : (fresh 0 unsent).vb.recycle = (fresh 0 unsent).vb := by
    have harray := forward_tail_array (fresh 0 unsent).vb
    have hhead := forward_tail_head (fresh 0 unsent).vb
    have hva := forward_tail_va (fresh 0 unsent).vb
    have hcur := forward_tail_cur (fresh 0 unsent).vb
    have htail := hring'.tail
    have hvs := hw'.vs
    rw [hk.ring.recycle]
    revert harray hhead hva hcur htail hvs
    generalize (fresh 0 unsent).vb.forward_tail = b
    obtain ⟨⟨array, head, tail⟩, vs, va, cur⟩ := b
    intro harray hhead hva hcur htail hvs
    dsimp only at harray hhead hva hcur htail hvs
    subst hva harray hhead hcur htail hvs
    rfl
  have hfull : (fresh 0 unsent).vb.head + 1 ≠ (fresh 0 unsent).vb.tail := Nat.succ_ne_zero _
  have hroom : (fresh 0 unsent).serials < 0 + GPRS_SNS := by
    show 0 + unsent < 0 + GPRS_SNS
    omega
  have harray : (fresh 0 unsent).vb.put (fresh 0 unsent).vb.head
      { state := NACK
        bsn := (fresh 0 unsent).vb.head
        upper_layer_pdu := some (fresh 0 unsent).blk } = (fresh 0 (unsent + 1)).vb.array := by
    have hrest : GPRS_SNS - (0 + unsent) = (GPRS_SNS - (0 + (unsent + 1))) + 1 := by omega
    unfold StateArray.put blk fresh
    dsimp only
    rw [hrest, List.replicate_succ, List.set_append_right _ _ (by simp), ← Nat.add_assoc,
      List.range_succ, List.map_append, List.append_assoc]
    simp
  have hhead : (0 + unsent + 1) % GPRS_SNS = 0 + (unsent + 1) := Nat.mod_eq_of_lt (by omega)
  unfold Sender.step
  dsimp only
  rw [hk.insert, if_neg hfull, if_pos hroom, hfwd]
  dsimp only
  unfold SendBuf.pushed
  rw [harray, show ((fresh 0 unsent).vb.head + 1) % GPRS_SNS = _ from hhead]
  rfl

theorem fresh_get_transmitted_blk {sent unsent : Nat} (h : sent + (unsent + 1) < GPRS_SNS)
    (hw : sent < GPRS_WS) :
    step (fresh sent (unsent + 1)) .get_transmitted_blk = .ok (fresh (sent + 1) unsent) := by
  have hslot : (fresh sent (unsent + 1)).vb.slot sent =
      { state := NACK
        bsn := sent
        upper_layer_pdu := some { user_data_bsn := sent, serial := sent } } := by
    rw [slot_fresh, if_pos (by omega), if_neg (Nat.lt_irrefl sent)]
  have htest : (fresh sent (unsent + 1)).vb.window_test = 1 := by
    rw [(window_fresh h (Nat.le_of_lt hw)).window_test (kept_fresh h).ring rfl]
    exact if_pos (by omega)
  have hvs : (sent + 1) % GPRS_SNS = sent + 1 := Nat.mod_eq_of_lt (by omega)
  have hsum : sent + 1 + unsent = sent + (unsent + 1) := by omega
  have harray : (fresh sent (unsent + 1)).vb.put sent
      { (fresh sent (unsent + 1)).vb.slot sent with state := PENDING_ACK } =
      (fresh (sent + 1) unsent).vb.array := by
    rw [hslot]
    unfold StateArray.put fresh
    dsimp only
    rw [hsum, List.set_append_left _ _ (by simp)]
    congr 1
    apply List.ext_getElem
    · simp
    · intro i _ _
      rw [List.getElem_set, List.getElem_map, List.getElem_map, List.getElem_range]
      by_cases hi : sent = i
      · subst hi
        rw [if_pos rfl, if_pos (Nat.lt_succ_self sent)]
      · rw [if_neg hi]
        congr 1
        split_ifs <;> first | rfl | omega
  have hget : (fresh sent (unsent + 1)).vb.get_transmitted_blk =
      SendBuf.transmit { (fresh sent (unsent + 1)).vb with vs := (sent + 1) % GPRS_SNS } sent := by
    refine if_pos ⟨htest, ?_⟩
    show ((fresh sent (unsent + 1)).vb.slot sent).state = NACK
    rw [hslot]
  unfold Sender.step
  dsimp only
  rw [hget]
  unfold SendBuf.transmit
  dsimp only
  rw [show StateArray.put _ sent _ = _ from harray, show StateArray.slot _ sent = _ from hslot, hvs]
  unfold fresh
  dsimp only
  rw [hsum, if_neg (Nat.succ_ne_zero sent)]
  rfl

/-- Blocks are put in, and the first ones are sent. -/
theorem exec_fresh (sent unsent : Nat) (h : sent + unsent < GPRS_SNS) (hw : sent ≤ GPRS_WS) :
    Run.exec step .init (List.replicate (sent + unsent) .insert ++
      List.replicate sent .get_transmitted_blk) = .ok (fresh sent unsent) := by
  have hput : ∀ n < GPRS_SNS,
      Run.exec step .init (List.replicate n .insert) = .ok (fresh 0 n) := by
    intro n hn
    induction n with
    | zero => rfl
    | succ n ih =>
      rw [List.replicate_succ', Run.exec_append (ih (by omega))]
      unfold Run.exec
      rw [fresh_insert hn]
      rfl
  rw [Run.exec_append (hput _ h)]
  induction sent generalizing unsent with
  | zero =>
    rw [Nat.zero_add]
    rfl
  | succ sent ih =>
    have hsum : sent + 1 + unsent = sent + (unsent + 1) := by omega
    rw [hsum, List.replicate_succ', Run.exec_append (ih (unsent + 1) (by omega) (by omega))]
    unfold Run.exec
    rw [fresh_get_transmitted_blk (by omega) hw]
    rfl

/-- 64 blocks are sent, the first one twice, and all but the first one are acknowledged. Then the search
    finds nothing, and the next one sends the block that is 64 ahead of the first one. -/
theorem hole_opens_window :
    ¬ Run.Always step InWindow .init
      (List.replicate 65 .insert ++ List.replicate 64 .get_transmitted_blk ++
        [.get_transmitted_blk,
          .process_ack { starting_sequence_number := 64
                         received_block_bitmap := List.replicate 63 1 ++ [0] },
          .get_transmitted_blk, .get_transmitted_blk]) := by
  intro h
  have hend : (Run.exec step (fresh 64 1)
      [.get_transmitted_blk,
        .process_ack { starting_sequence_number := 64
                       received_block_bitmap := List.replicate 63 1 ++ [0] },
        .get_transmitted_blk, .get_transmitted_blk]).map
      (fun s => (s.sent.map Blk.user_data_bsn, s.oldest.map Blk.user_data_bsn)) =
      .ok (some 64, some 0) := by decide +kernel
  rw [← Run.exec_append (exec_fresh 64 1 (by decide) (by decide))] at hend
  obtain ⟨s, hs, hb⟩ := h.exec_map hend
  obtain ⟨blk, hblk, hbsn⟩ := Option.map_eq_some_iff.1 (Prod.mk.inj hb).1
  obtain ⟨o, ho, hobsn⟩ := Option.map_eq_some_iff.1 (Prod.mk.inj hb).2
  have hwin := hs blk hblk o ho
  rw [hbsn, hobsn] at hwin
  exact absurd hwin (by decide)

end Sender

end Gprs
