import Nctuns.Ps.Proofs.DrrProofs
import Mathlib.Tactic.LinearCombination
import Mathlib.Tactic.Ring

/-!
# Proofs about credits and turns

The module notes down the length of the first packet of every queue. A queue that is not in service
has less credit than the longest packet has bytes; one in service can pay for its first packet.
-/

namespace Ps

open PtrChain Outcome

variable {cfg : DrrConfig} {d d' : Drr} {l : List Nat} {k rr L : Nat} {p pkt : Packet}
  {rest : List Packet} {t t' : DrrTbl}

/-! ### A queue -/

/-- The counts and the credit of a queue belong to its packets. -/
structure DrrTbl.Sound (t : DrrTbl) : Prop where
  Counter : t.Counter = t.packets.length
  pkt_length : ∀ p ∈ t.packets.head?, t.pkt_length = p.ip_len.toNat
  Priority : t.packets = [] → t.Priority = 0

theorem DrrTbl.Sound.first (h : t.Sound) (hp : t.packets = pkt :: rest) :
    t.pkt_length = pkt.ip_len.toNat := h.pkt_length pkt (by simp [hp])

theorem DrrTbl.Sound.timer (h : t.Sound) (x : Int) : DrrTbl.Sound { t with Timer := x } :=
  ⟨h.Counter, h.pkt_length, h.Priority⟩

/-- A new flow is sound. -/
theorem newTbl_sound (cfg : DrrConfig) (k : Nat) (p : Packet) : (Drr.newTbl cfg k p).Sound where
  Counter := rfl
  pkt_length q hq := by
    obtain rfl : p = q := by simpa [Drr.newTbl] using hq
    rfl
  Priority h := by cases h

/-- A packet that is put into a queue changes nothing about the credit. -/
theorem append_sound (h : t.Sound) (p : Packet) :
    (t.append p).Sound ∧ (t.append p).packets = t.packets ++ [p] ∧
      (t.append p).Priority = t.Priority := by
  unfold DrrTbl.append
  simp only [h.Counter]
  cases hp : t.packets with
  | nil =>
    have h1 : (List.length ([] : List Packet) : Int) + 1 = 1 := rfl
    rw [if_pos h1]
    refine ⟨⟨rfl, fun q hq => ?_, fun he => by cases he⟩, rfl, (h.Priority hp).symm⟩
    obtain rfl : p = q := by simpa using hq
    rfl
  | cons q qs =>
    have h1 : ¬ ((List.length (q :: qs) : Int) + 1 = 1) := by rw [List.length_cons]; omega
    have h2 : (List.length (q :: qs) : Int) + 1 > 1 := by rw [List.length_cons]; omega
    rw [if_neg h1, if_pos h2]
    refine ⟨⟨by simp, fun r hr => ?_, fun he => by cases he⟩, rfl, rfl⟩
    exact h.pkt_length r (by simpa [hp] using hr)

/-- A queue pays for the packet that it gives out, and one that is empty then loses what is left. -/
theorem serve_sound (h : t.Sound) (hp : t.packets = pkt :: rest) :
    ∃ t', t.serve = .ok (t', pkt) ∧ t'.Sound ∧ t'.packets = rest ∧
      (rest ≠ [] → t'.Priority = t.Priority - pkt.ip_len.toNat) := by
  have hcount : t.Counter - 1 = rest.length := by
    rw [h.Counter, hp]
    simp
  unfold DrrTbl.serve DrrTbl.remove
  simp only [hp, hcount, h.first hp, bind_ok]
  cases rest with
  | nil =>
    refine ⟨_, rfl, ⟨rfl, fun q hq => ?_, fun _ => rfl⟩, rfl, fun he => absurd rfl he⟩
    cases hq
  | cons q rest =>
    have hpos : ((q :: rest).length : Int) > 0 := by simp
    rw [if_pos hpos]
    refine ⟨_, rfl, ⟨rfl, fun r hr => ?_, fun he => ?_⟩, rfl, fun _ => rfl⟩
    · obtain rfl : q = r := by simpa using hr
      rfl
    · cases he

/-! ### A packet of a flow -/

/-- The credits are sound, and addresses that were not handed out hold no packets. -/
structure Drr.Noted (d : Drr) (cfg : DrrConfig) (l : List Nat) : Prop where
  queued : d.Queued cfg l
  sound : ∀ k, (d.tbl k).Sound
  fresh : ∀ k, d.allocated ≤ k → (d.tbl k).packets = []

/-- Nothing is queued at the start. -/
theorem init_noted (cfg : DrrConfig) (t : DrrTbl) : (Drr.init t).Noted cfg [] where
  queued := init_queued
  sound _ := ⟨rfl, fun _ h => (by cases h), fun _ => rfl⟩
  fresh _ _ := rfl

/-- The queue `k` takes a packet; it is the next to serve if the packet is the only one. -/
structure Appends (d d' : Drr) (k : Nat) (p : Packet) : Prop where
  packets : (d'.tbl k).packets = (d.tbl k).packets ++ [p]
  Priority : (d'.tbl k).Priority = (d.tbl k).Priority
  sound : (d'.tbl k).Sound
  others : ∀ j ≠ k, d'.tbl j = d.tbl j
  lt : k < d'.allocated
  allocated : d.allocated ≤ d'.allocated
  total : d'.DrrPacketTotal = d.DrrPacketTotal + 1
  pointer : d'.drrTableRR = if d'.DrrPacketTotal = 1 then some k else d.drrTableRR
  var : d'.drrTableRR_var = if d'.DrrPacketTotal = 1 then true else d.drrTableRR_var

/-- What `addTbl` does when it succeeds. -/
theorem addTbl_inv (h : d.addTbl cfg p = .ok d') :
    d'.tbl = Function.update d.tbl d.allocated (Drr.newTbl cfg d.allocated p) ∧
      d'.allocated = d.allocated + 1 ∧ d'.DrrPacketTotal = d.DrrPacketTotal + 1 ∧
      d'.drrTableRR = d.drrTableRR ∧ d'.drrTableRR_var = d.drrTableRR_var := by
  unfold Drr.addTbl at h
  simp only at h
  split at h
  · obtain rfl := Except.ok.inj h
    exact ⟨rfl, rfl, rfl, rfl, rfl⟩
  · split at h
    · split at h
      · cases h
      · obtain rfl := Except.ok.inj h
        exact ⟨rfl, rfl, rfl, rfl, rfl⟩
    · obtain rfl := Except.ok.inj h
      exact ⟨rfl, rfl, rfl, rfl, rfl⟩

/-- An accepted packet is appended to one flow. -/
theorem enque_appends (h : d.Noted cfg l) (hrun : d.enque cfg p = .ok (d', none)) :
    ∃ k, Appends d d' k p := by
  unfold Drr.enque at hrun
  split at hrun
  · cases hrun
  · rw [search_spec h.queued p, bind_ok] at hrun
    cases hk : d.home cfg l p with
    | none =>
      simp only [hk] at hrun
      obtain ⟨d₁, hadd, hrun⟩ := of_bind_eq_ok hrun
      obtain ⟨htbl, hall, htotal, hrr, hvar⟩ := addTbl_inv hadd
      obtain rfl : d₁.point d.allocated = d' := congrArg Prod.fst (Except.ok.inj hrun)
      have hempty := h.fresh d.allocated le_rfl
      have hnew : d₁.tbl d.allocated = Drr.newTbl cfg d.allocated p := by rw [htbl]; simp
      rw [point_eq]
      refine ⟨d.allocated, ?_, ?_, ?_, fun j hj => ?_, ?_, ?_, htotal, ?_, ?_⟩
      · show (d₁.tbl d.allocated).packets = _
        rw [hnew, hempty]
        rfl
      · show (d₁.tbl d.allocated).Priority = _
        rw [hnew, (h.sound d.allocated).Priority hempty]
        rfl
      · show (d₁.tbl d.allocated).Sound
        rw [hnew]
        exact newTbl_sound cfg d.allocated p
      · show d₁.tbl j = d.tbl j
        rw [htbl]
        exact Function.update_of_ne hj _ _
      · show d.allocated < d₁.allocated
        omega
      · show d.allocated ≤ d₁.allocated
        omega
      · simp only [hrr]
      · simp only [hvar]
    | some k =>
      simp only [hk] at hrun
      split at hrun
      · cases hrun
      · obtain rfl := congrArg Prod.fst (Except.ok.inj hrun)
        obtain ⟨hsound, hpackets, hPriority⟩ := append_sound (h.sound k) p
        have hkl : k ∈ l := List.mem_of_find?_eq_some hk
        rw [point_eq]
        refine ⟨k, ?_, ?_, ?_, fun j hj => ?_, h.queued.lt k hkl, le_rfl, rfl, rfl, rfl⟩
        · simpa [Drr.setTbl] using hpackets
        · simpa [Drr.setTbl] using hPriority
        · simpa [Drr.setTbl] using hsound
        · simp [Drr.setTbl, hj]

/-- `send` changes nothing about the flow queues, or puts the packet into one of them. -/
theorem send_cases (h : d.Noted cfg l) (qfull : Bool) (p : Packet) :
    ∃ d' fate, d.send cfg qfull p = .ok (d', fate) ∧
      ((∃ u v, d' = { d with SpanningTbl := u, SpecialTbl := v } ∧ u.Counter = 0 ∧ v.Counter = 0) ∨
        p.ether_type = 0x0800 ∧ ∃ l' k, d'.Queued cfg l' ∧ Appends d d' k p) := by
  have hsame : ∃ u v, d = { d with SpanningTbl := u, SpecialTbl := v } ∧ u.Counter = 0 ∧
      v.Counter = 0 := ⟨_, _, rfl, h.queued.spanning, h.queued.special⟩
  unfold Drr.send
  split
  · split
    · exact ⟨_, _, rfl, .inl ⟨_, d.SpecialTbl, rfl, h.queued.spanning, h.queued.special⟩⟩
    · exact ⟨_, _, rfl, .inl hsame⟩
  · split
    · split
      · exact ⟨_, _, rfl, .inl ⟨d.SpanningTbl, _, rfl, h.queued.spanning, h.queued.special⟩⟩
      · exact ⟨_, _, rfl, .inl hsame⟩
    · rename_i hip
      have hip := not_not.1 hip
      split
      · rcases enque_spec h.queued hip with hfreed | ⟨d', l', hrun, htakes⟩
        · exact ⟨_, _, hfreed, .inl hsame⟩
        · obtain ⟨k, hk⟩ := enque_appends h hrun
          exact ⟨_, _, hrun, .inr ⟨hip, l', k, htakes.queued, hk⟩⟩
      · exact ⟨_, _, rfl, .inl hsame⟩

/-! ### A call of `intrq` -/

/-- The pointer moves, and nothing else. -/
theorem moveRR_inv (h : d.moveRR rr = .ok d') :
    ∃ r v, d' = { d with drrTableRR := r, drrTableRR_var := v } ∧
      (v = true ∧ d.DrrPacketTotal > 0 ∨ r = none) := by
  unfold Drr.moveRR at h
  split at h
  · rename_i hpos
    obtain ⟨k, -, hk⟩ := of_bind_eq_ok h
    obtain rfl := Except.ok.inj hk
    exact ⟨some k, true, rfl, .inl ⟨rfl, hpos⟩⟩
  · obtain rfl := Except.ok.inj h
    exact ⟨none, d.drrTableRR_var, rfl, .inr rfl⟩

/-- A flow with packets gets its quota. -/
theorem giveQuota_busy (h : (d.tbl rr).Sound) (hbusy : (d.tbl rr).packets ≠ []) :
    d.giveQuota cfg rr = { d.setTbl rr { d.tbl rr with Priority := d.credit cfg rr } with
      drrTableRR_var := false } := by
  have hCounter : (d.tbl rr).Counter ≠ 0 := by
    have hpos := List.length_pos_iff.2 hbusy
    rw [h.Counter]
    omega
  unfold Drr.giveQuota Drr.credit
  cases hv : d.drrTableRR_var with
  | true => simp [hCounter]
  | false =>
    simp only [Bool.false_eq_true, false_and, if_false, Int.add_zero]
    simp [Drr.setTbl, ← hv]

/-- A turn that goes on, or is over. -/
structure Serves (cfg : DrrConfig) (d d' : Drr) (rr : Nat) (pkt : Packet) (rest : List Packet) :
    Prop where
  packets : (d'.tbl rr).packets = rest
  Priority : rest ≠ [] → (d'.tbl rr).Priority = d.credit cfg rr - pkt.ip_len.toNat
  sound : (d'.tbl rr).Sound
  others : ∀ j ≠ rr, d'.tbl j = d.tbl j
  allocated : d'.allocated = d.allocated
  total : d'.DrrPacketTotal = d.DrrPacketTotal - 1
  turn : (d'.drrTableRR_var = true ∧ d'.DrrPacketTotal > 0 ∨ d'.drrTableRR = none) ∧
      (rest = [] ∨ (d'.tbl rr).Priority < (d'.tbl rr).pkt_length) ∨
    d'.drrTableRR = some rr ∧ d'.drrTableRR_var = false ∧ rest ≠ [] ∧
      (d'.tbl rr).pkt_length ≤ (d'.tbl rr).Priority

/-- A queue whose turn it is and that cannot pay keeps its turn, and nothing is handed out. -/
theorem serveFlows_poor (hrr : d.drrTableRR = some rr) (hs : (d.tbl rr).Sound)
    (hp : (d.tbl rr).packets = pkt :: rest) (hpay : ¬ (pkt.ip_len.toNat : Int) ≤ d.credit cfg rr) :
    d.serveFlows cfg = .ok ({ d.setTbl rr { d.tbl rr with Priority := d.credit cfg rr } with
      drrTableRR_var := false }, none) := by
  unfold Drr.serveFlows
  rw [hrr]
  simp only [giveQuota_busy hs (show (d.tbl rr).packets ≠ [] by simp [hp])]
  rw [if_neg]
  rintro ⟨hge, -⟩
  simp only [Drr.setTbl, Function.update_self] at hge
  rw [hs.first hp] at hge
  exact hpay hge

/-- A queue that can pay gives out its first packet. -/
theorem serveFlows_serves (hrr : d.drrTableRR = some rr) (hs : (d.tbl rr).Sound)
    (hp : (d.tbl rr).packets = pkt :: rest) (hpay : (pkt.ip_len.toNat : Int) ≤ d.credit cfg rr)
    {r : Option Packet} (hrun : d.serveFlows cfg = .ok (d', r)) :
    r = some pkt ∧ Serves cfg d d' rr pkt rest := by
  have hbusy : (d.tbl rr).packets ≠ [] := by simp [hp]
  have hpos := List.length_pos_iff.2 hbusy
  obtain ⟨t, hserve, hsound, hpackets, hPriority⟩ :=
    @serve_sound pkt rest { d.tbl rr with Priority := d.credit cfg rr }
      ⟨hs.Counter, hs.pkt_length, fun he => absurd he hbusy⟩ hp
  unfold Drr.serveFlows at hrun
  rw [hrr] at hrun
  simp only [giveQuota_busy hs hbusy] at hrun
  simp only [setTbl_self] at hrun
  rw [if_pos ⟨by rw [hs.first hp]; exact hpay, by rw [hs.Counter]; omega⟩] at hrun
  simp only [hserve, bind_ok] at hrun
  have hothers : ∀ j ≠ rr, Function.update (Function.update d.tbl rr
      { d.tbl rr with Priority := d.credit cfg rr }) rr t j = d.tbl j := fun j hj => by
    rw [Function.update_of_ne hj, Function.update_of_ne hj]
  have hCounter := hsound.Counter
  split at hrun
  · rename_i hover
    have hover : rest = [] ∨ t.Priority < t.pkt_length := by
      refine hover.imp_left fun hle => List.length_eq_zero_iff.1 ?_
      rw [hpackets] at hCounter
      omega
    obtain ⟨d₂, hmove, hrun⟩ := of_bind_eq_ok hrun
    obtain ⟨r', v, rfl, hv⟩ := moveRR_inv hmove
    obtain ⟨rfl, rfl⟩ := Prod.mk.inj (Except.ok.inj hrun)
    refine ⟨rfl, ⟨?_, ?_, ?_, hothers, rfl, rfl, .inl ⟨hv, ?_⟩⟩⟩
    · simpa [Drr.setTbl] using hpackets
    · simpa [Drr.setTbl] using hPriority
    · simpa [Drr.setTbl] using hsound
    · simpa [Drr.setTbl] using hover
  · rename_i hmore
    obtain ⟨rfl, rfl⟩ := Prod.mk.inj (Except.ok.inj hrun)
    have hne : rest ≠ [] := fun he => hmore (.inl (by rw [hCounter, hpackets, he]; rfl))
    refine ⟨rfl, ⟨?_, ?_, ?_, hothers, rfl, rfl, .inr ⟨hrr, rfl, hne, ?_⟩⟩⟩
    · simpa [Drr.setTbl] using hpackets
    · simpa [Drr.setTbl] using hPriority
    · simpa [Drr.setTbl] using hsound
    · simpa [Drr.setTbl] using not_lt.1 fun hlt => hmore (.inr hlt)

/-- The queue whose turn it is. -/
theorem Drr.Noted.turn (h : d.Noted cfg l) (hpos : d.DrrPacketTotal > 0) :
    ∃ rr pkt rest, rr ∈ l ∧ d.drrTableRR = some rr ∧ (d.tbl rr).packets = pkt :: rest := by
  obtain ⟨pre, rr, post, hl, hrr, hbusy, -⟩ := h.queued.turn hpos
  obtain ⟨pkt, rest, hp⟩ := List.exists_cons_of_ne_nil hbusy
  exact ⟨rr, pkt, rest, by simp [hl], hrr, hp⟩

/-- What `intrq` does in a sound state. -/
theorem intrq_eq (h : d.Queued cfg l) :
    d.intrq cfg = if d.DrrPacketTotal > 0 then d.serveFlows cfg else .ok (d, none) := by
  have hspanning : ¬ d.SpanningTbl.Counter > 0 := by rw [h.spanning]; decide
  have hspecial : ¬ d.SpecialTbl.Counter > 0 := by rw [h.special]; decide
  unfold Drr.intrq
  rw [if_neg hspanning, if_neg hspecial]

/-- **Work conservation, in a state.** -/
theorem works_iff (h : d.Noted cfg l) (hpos : d.DrrPacketTotal > 0) :
    (∃ d' pkt, d.intrq cfg = .ok (d', some pkt)) ↔ d.Pays cfg := by
  obtain ⟨rr, pkt, rest, -, hrr, hp⟩ := h.turn hpos
  rw [intrq_eq h.queued, if_pos hpos]
  have hpays : d.Pays cfg ↔ (pkt.ip_len.toNat : Int) ≤ d.credit cfg rr := by
    simp [Drr.Pays, hrr, hp]
  rw [hpays]
  constructor
  · rintro ⟨d', pkt', hrun⟩
    by_contra hpay
    rw [serveFlows_poor hrr (h.sound rr) hp hpay] at hrun
    cases hrun
  · intro hpay
    rcases serveFlows_spec h.queued hpos with ⟨d', hrun, -⟩ | ⟨d', pkt', hrun, -⟩
    · cases (serveFlows_serves hrr (h.sound rr) hp hpay hrun).1
    · exact ⟨d', pkt', hrun⟩

/-! ### Work conservation -/

/-- Packets of the other protocols have nothing to do with the flows. -/
theorem Drr.Noted.others {u v : DrrTbl} (h : d.Noted cfg l) (hu : u.Counter = 0)
    (hv : v.Counter = 0) : Drr.Noted { d with SpanningTbl := u, SpecialTbl := v } cfg l where
  queued :=
    { list := h.queued.list
      lt := h.queued.lt
      count := h.queued.count
      healthy := fun k hk => (h.queued.healthy k hk).keep rfl fun _ => id
      total := h.queued.total
      turn := h.queued.turn
      spanning := hu
      special := hv }
  sound := h.sound
  fresh := h.fresh

/-- An appended packet keeps the notes. -/
theorem Drr.Noted.append (h : d.Noted cfg l) {l' : List Nat} (hq : d'.Queued cfg l')
    (ha : Appends d d' k p) : d'.Noted cfg l' where
  queued := hq
  sound j := by
    by_cases hj : j = k
    · exact hj ▸ ha.sound
    · exact ha.others j hj ▸ h.sound j
  fresh j hj := by
    have hjk : j ≠ k := by
      intro he
      have := ha.lt
      omega
    rw [ha.others j hjk]
    exact h.fresh j (ha.allocated.trans hj)

/-- A service keeps the notes. -/
theorem Drr.Noted.serve (h : d.Noted cfg l) (hq : d'.Queued cfg l) (hrr : rr ∈ l)
    (hs : Serves cfg d d' rr pkt rest) : d'.Noted cfg l where
  queued := hq
  sound j := by
    by_cases hj : j = rr
    · exact hj ▸ hs.sound
    · exact hs.others j hj ▸ h.sound j
  fresh j hj := by
    rw [hs.allocated] at hj
    have hjr : j ≠ rr := by
      intro he
      have := h.queued.lt rr hrr
      omega
    rw [hs.others j hjr]
    exact h.fresh j hj

/-- A quota that is not enough. -/
theorem Drr.Noted.poor (h : d.Noted cfg l) (hbusy : (d.tbl rr).packets ≠ [])
    (hq : Drr.Queued { d.setTbl rr { d.tbl rr with Priority := d.credit cfg rr } with
      drrTableRR_var := false } cfg l) :
    Drr.Noted { d.setTbl rr { d.tbl rr with Priority := d.credit cfg rr } with
      drrTableRR_var := false } cfg l where
  queued := hq
  sound j := by
    by_cases hj : j = rr
    · subst hj
      have hsound := h.sound j
      rw [show ∀ v, Drr.tbl { d.setTbl j { d.tbl j with Priority := d.credit cfg j } with
        drrTableRR_var := v } j = { d.tbl j with Priority := d.credit cfg j } from
        fun _ => setTbl_self _ _ _]
      exact ⟨hsound.Counter, hsound.pkt_length, fun he => absurd he hbusy⟩
    · exact (setTbl_of_ne (d := d) hj).symm ▸ h.sound j
  fresh j hj := by
    have hjr : j ≠ rr := fun he => hbusy (he ▸ h.fresh j hj)
    exact (setTbl_of_ne (d := d) hjr).symm ▸ h.fresh j hj

/-- What one call of `intrq` does. -/
theorem intrq_cases (h : d.Noted cfg l) :
    d.DrrPacketTotal ≤ 0 ∧ d.intrq cfg = .ok (d, none) ∨
      d.DrrPacketTotal > 0 ∧ ∃ rr pkt rest, rr ∈ l ∧ d.drrTableRR = some rr ∧
        (d.tbl rr).packets = pkt :: rest ∧
        (¬ (pkt.ip_len.toNat : Int) ≤ d.credit cfg rr ∧
            d.intrq cfg = .ok ({ d.setTbl rr { d.tbl rr with Priority := d.credit cfg rr } with
              drrTableRR_var := false }, none) ∧
            Drr.Noted { d.setTbl rr { d.tbl rr with Priority := d.credit cfg rr } with
              drrTableRR_var := false } cfg l ∨
          (pkt.ip_len.toNat : Int) ≤ d.credit cfg rr ∧
            ∃ d', d.intrq cfg = .ok (d', some pkt) ∧ Serves cfg d d' rr pkt rest ∧
              d'.Noted cfg l) := by
  rw [intrq_eq h.queued]
  by_cases hpos : d.DrrPacketTotal > 0
  · rw [if_pos hpos]
    obtain ⟨rr, pkt, rest, hrrl, hrr, hp⟩ := h.turn hpos
    refine .inr ⟨hpos, rr, pkt, rest, hrrl, hrr, hp, ?_⟩
    by_cases hpay : (pkt.ip_len.toNat : Int) ≤ d.credit cfg rr
    · rcases serveFlows_spec h.queued hpos with ⟨d', hrun, -⟩ | ⟨d', pkt', hrun, hgives⟩
      · cases (serveFlows_serves hrr (h.sound rr) hp hpay hrun).1
      · obtain ⟨hpkt, hserves⟩ := serveFlows_serves hrr (h.sound rr) hp hpay hrun
        exact .inr ⟨hpay, d', hpkt ▸ hrun, hserves, h.serve hgives.queued hrrl hserves⟩
    · have hrun := serveFlows_poor hrr (h.sound rr) hp hpay
      refine .inl ⟨hpay, hrun, h.poor (by simp [hp]) ?_⟩
      rcases serveFlows_spec h.queued hpos with ⟨d', hrun', hkeeps⟩ | ⟨d', pkt', hrun', -⟩
      · rw [hrun] at hrun'
        exact (Prod.mk.inj (Except.ok.inj hrun')).1 ▸ hkeeps.queued
      · rw [hrun] at hrun'
        cases hrun'
  · rw [if_neg hpos]
    exact .inl ⟨by omega, rfl⟩

/-- Unlinking leaves the flows as they are. -/
theorem unlink_inv {prev : Option Nat} (h : d.unlink prev k = .ok d') :
    d'.tbl = d.tbl ∧ d'.allocated = d.allocated := by
  unfold Drr.unlink at h
  simp only at h
  split at h
  · obtain rfl := Except.ok.inj h
    exact ⟨rfl, rfl⟩
  · split at h
    · cases h
    · split at h <;> obtain rfl := Except.ok.inj h <;> exact ⟨rfl, rfl⟩

/-- A sweep changes timers and links. -/
theorem sweep_inv {n : Nat} {prev cur : Option Nat} (h : Drr.sweep n prev cur d = .ok d') :
    (∀ k, ∃ x, d'.tbl k = { d.tbl k with Timer := x }) ∧ d'.allocated = d.allocated := by
  induction n generalizing prev cur d with
  | zero =>
    cases cur with
    | none =>
      obtain rfl := Except.ok.inj h
      exact ⟨fun k => ⟨_, rfl⟩, rfl⟩
    | some c => cases h
  | succ n ih =>
    cases cur with
    | none =>
      obtain rfl := Except.ok.inj h
      exact ⟨fun k => ⟨_, rfl⟩, rfl⟩
    | some c =>
      have hd₁ : ∃ d₁, d₁.tbl = Function.update d.tbl c (Drr.tick (d.tbl c)) ∧
          d₁.allocated = d.allocated ∧ Drr.sweep n (some c) (d₁.Next c) d₁ = .ok d' := by
        rw [Drr.sweep] at h
        split at h
        · obtain ⟨d₁, h₁, h⟩ := of_bind_eq_ok h
          obtain ⟨htbl, hall⟩ := unlink_inv h₁
          exact ⟨d₁, htbl, hall, h⟩
        · exact ⟨d.setTbl c (Drr.tick (d.tbl c)), rfl, rfl, h⟩
      obtain ⟨d₁, htbl₁, hall₁, h⟩ := hd₁
      obtain ⟨htbl, hall⟩ := ih h
      refine ⟨fun k => ?_, hall.trans hall₁⟩
      obtain ⟨x, hx⟩ := htbl k
      by_cases hk : k = c
      · subst hk
        obtain ⟨y, hy⟩ := tick_eq (d.tbl k)
        rw [hx, htbl₁, Function.update_self, hy]
        exact ⟨x, rfl⟩
      · rw [hx, htbl₁, Function.update_of_ne hk]
        exact ⟨x, rfl⟩

/-- A sweep keeps the notes. -/
theorem Delete_que_noted (h : d.Noted cfg l) (hs : d.Spares .Delete_que) :
    ∃ d' l', d.Delete_que = .ok d' ∧ d'.Noted cfg l' := by
  simp only [Drr.Spares, h.queued.queues_eq] at hs
  obtain ⟨d', l', hrun, hkeeps⟩ := Delete_que_spec h.queued hs
  obtain ⟨htbl, hall⟩ := sweep_inv hrun
  refine ⟨d', l', hrun, ⟨hkeeps.queued, fun k => ?_, fun k hk => ?_⟩⟩
  · obtain ⟨x, hx⟩ := htbl k
    exact hx ▸ (h.sound k).timer x
  · obtain ⟨x, hx⟩ := htbl k
    rw [hx]
    exact h.fresh k (hall ▸ hk)

/-- **Step.** Every call keeps the notes. -/
theorem step_noted {w : Ledger} {c : Call} (h : w.drr.Noted cfg l) (hc : w.drr.Spares c) :
    ∃ w' l', w.step cfg c = .ok w' ∧ w'.drr.Noted cfg l' := by
  cases c with
  | send qfull x =>
    obtain ⟨d', fate, hrun, hcase⟩ := send_cases h qfull (w.packet x)
    simp only [Ledger.step, hrun, bind_ok]
    rcases hcase with ⟨u, v, rfl, hu, hv⟩ | ⟨-, l', k, hq, hk⟩
    · exact ⟨_, l, rfl, h.others hu hv⟩
    · exact ⟨_, l', rfl, h.append hq hk⟩
  | intrq =>
    simp only [Ledger.step]
    rcases intrq_cases h with ⟨-, hrun⟩ | ⟨-, rr, pkt, rest, -, -, -, ⟨-, hrun, h'⟩ |
      ⟨-, d', hrun, -, h'⟩⟩
    · rw [hrun]
      exact ⟨_, l, rfl, h⟩
    · rw [hrun]
      exact ⟨_, l, rfl, h'⟩
    · rw [hrun]
      exact ⟨_, l, rfl, h'⟩
  | Delete_que =>
    obtain ⟨d', l', hrun, h'⟩ := Delete_que_noted h hc
    simp only [Ledger.step, hrun]
    exact ⟨_, l', rfl, h'⟩

/-- A TCP packet of a thousand bytes, a quota of a hundred. -/
def slow : DrrConfig := { defaults with CreditAddedPerRound := 100 }

/-- A packet that is longer than one quota. -/
def longPacket : List Call := [.send true ⟨0x0800, 1, 2, 6, 80, 81, 1000⟩]

/-- Between turns a queue has less credit than the longest packet has bytes; in a turn it can pay. -/
structure Drr.Credited (d : Drr) (cfg : DrrConfig) (L : Nat) (l : List Nat) : Prop where
  noted : d.Noted cfg l
  fits : ∀ k, ∀ p ∈ (d.tbl k).packets, p.ip_len.toNat ≤ L
  idle : d.DrrPacketTotal ≤ 0 → d.drrTableRR = none
  nonneg : ∀ k, 0 ≤ (d.tbl k).Priority
  between : ∀ k, ¬ d.InService k → (d.tbl k).Priority < L
  during : ∀ k, d.InService k → (d.tbl k).pkt_length ≤ (d.tbl k).Priority ∧
    (d.tbl k).Priority < cfg.CreditAddedPerRound + L

/-- No flow has credit at the start. -/
theorem init_credited (cfg : DrrConfig) (t : DrrTbl) (hL : 0 < L) :
    (Drr.init t).Credited cfg L [] where
  noted := init_noted cfg t
  fits _ _ h := by cases h
  idle _ := rfl
  nonneg _ := le_rfl
  between _ _ := Int.natCast_pos.2 hL
  during _ h := by cases h.1

/-- The invariant gives the bounds on the credits. -/
theorem Drr.Credited.bounded (h : d.Credited cfg L l) (hQ : (L : Int) ≤ cfg.CreditAddedPerRound) :
    Bounded cfg L d where
  credit_nonneg := h.nonneg
  credit_lt k := by
    by_cases hk : d.InService k
    · exact (h.during k hk).2
    · have := h.between k hk
      omega
  pointer rr hrr he := by
    rw [h.noted.queued.queues_eq]
    by_cases hpos : d.DrrPacketTotal > 0
    · obtain ⟨rr', pkt, rest, -, hrr', hp⟩ := h.noted.turn hpos
      rw [hrr] at hrr'
      obtain rfl := Option.some.inj hrr'
      rw [he] at hp
      cases hp
    · have htotal := h.noted.queued.total
      exact List.length_eq_zero_iff.1 (by omega)

/-- The queue in service is not empty. -/
theorem Drr.Credited.busy (h : d.Credited cfg L l) (hk : d.InService k) :
    (d.tbl k).packets ≠ [] := by
  intro he
  have hpos : d.DrrPacketTotal > 0 := by
    by_contra hle
    have hnone := h.idle (by omega)
    rw [hk.1] at hnone
    cases hnone
  obtain ⟨rr, pkt, rest, -, hrr, hp⟩ := h.noted.turn hpos
  rw [hk.1] at hrr
  obtain rfl := Option.some.inj hrr
  rw [he] at hp
  cases hp

/-- An appended packet keeps the credits. -/
theorem Drr.Credited.append (h : d.Credited cfg L l) {l' : List Nat} (hq : d'.Queued cfg l')
    (ha : Appends d d' k p) (hp : p.ip_len.toNat ≤ L) : d'.Credited cfg L l' := by
  have hservice : ∀ j, d'.InService j → d.InService j := by
    intro j hj
    obtain ⟨hpointer, hvar⟩ := hj
    rw [ha.pointer] at hpointer
    rw [ha.var] at hvar
    split at hvar
    · cases hvar
    · rename_i hone
      rw [if_neg hone] at hpointer
      exact ⟨hpointer, hvar⟩
  have hservice' : ∀ j, d.InService j → d'.InService j := by
    intro j hj
    have hone : ¬ d'.DrrPacketTotal = 1 := by
      intro hone
      have hnone := h.idle (by rw [ha.total] at hone; omega)
      rw [hj.1] at hnone
      cases hnone
    refine ⟨?_, ?_⟩
    · rw [ha.pointer, if_neg hone]
      exact hj.1
    · rw [ha.var, if_neg hone]
      exact hj.2
  have hPriority : ∀ j, (d'.tbl j).Priority = (d.tbl j).Priority := by
    intro j
    by_cases hj : j = k
    · exact hj ▸ ha.Priority
    · rw [ha.others j hj]
  refine ⟨h.noted.append hq ha, fun j q hqj => ?_, fun hle => ?_, fun j => ?_, fun j hj => ?_,
    fun j hj => ?_⟩
  · by_cases hjk : j = k
    · subst hjk
      rw [ha.packets, List.mem_append, List.mem_singleton] at hqj
      rcases hqj with hqj | rfl
      · exact h.fits j q hqj
      · exact hp
    · rw [ha.others j hjk] at hqj
      exact h.fits j q hqj
  · have htotal := h.noted.queued.total
    rw [ha.total] at hle
    omega
  · rw [hPriority]
    exact h.nonneg j
  · rw [hPriority]
    exact h.between j (mt (hservice' j) hj)
  · have hold := hservice j hj
    obtain ⟨hpays, hlt⟩ := h.during j hold
    rw [hPriority]
    refine ⟨?_, hlt⟩
    obtain ⟨q, qs, hqs⟩ := List.exists_cons_of_ne_nil (h.busy hold)
    rw [(h.noted.sound j).first hqs] at hpays
    by_cases hjk : j = k
    · subst hjk
      rw [ha.sound.first (show _ = q :: (qs ++ [p]) by rw [ha.packets, hqs]; rfl)]
      exact hpays
    · rw [ha.others j hjk, (h.noted.sound j).first hqs]
      exact hpays

/-- A queue whose turn it is can pay. -/
theorem Drr.Credited.pays (h : d.Credited cfg L l) (hQ : (L : Int) ≤ cfg.CreditAddedPerRound)
    (hrr : d.drrTableRR = some rr) (hp : (d.tbl rr).packets = pkt :: rest) :
    (pkt.ip_len.toNat : Int) ≤ d.credit cfg rr ∧ 0 ≤ d.credit cfg rr ∧
      d.credit cfg rr < cfg.CreditAddedPerRound + L := by
  have hfits := h.fits rr pkt (by simp [hp])
  have hnonneg := h.nonneg rr
  unfold Drr.credit
  cases hv : d.drrTableRR_var with
  | true =>
    have hlt := h.between rr fun hs => by rw [hs.2] at hv; cases hv
    rw [if_pos rfl]
    omega
  | false =>
    obtain ⟨hpays, hlt⟩ := h.during rr ⟨hrr, hv⟩
    rw [(h.noted.sound rr).first hp] at hpays
    rw [if_neg (by decide)]
    omega

/-- A service keeps the credits in their bounds. -/
theorem Drr.Credited.serve (h : d.Credited cfg L l) (hL : 0 < L)
    (hQ : (L : Int) ≤ cfg.CreditAddedPerRound) (hrrl : rr ∈ l) (hrr : d.drrTableRR = some rr)
    (hp : (d.tbl rr).packets = pkt :: rest) (hs : Serves cfg d d' rr pkt rest)
    (hn : d'.Noted cfg l) : d'.Credited cfg L l := by
  obtain ⟨hpays, hnonneg, hlt⟩ := h.pays hQ hrr hp
  have hfits : ∀ j, ∀ q ∈ (d'.tbl j).packets, q.ip_len.toNat ≤ L := by
    intro j q hq
    by_cases hj : j = rr
    · subst hj
      rw [hs.packets] at hq
      exact h.fits j q (by simp [hp, hq])
    · rw [hs.others j hj] at hq
      exact h.fits j q hq
  have hPriority : 0 ≤ (d'.tbl rr).Priority ∧
      (d'.tbl rr).Priority < cfg.CreditAddedPerRound + L := by
    by_cases hne : rest = []
    · rw [hs.sound.Priority (hs.packets.trans hne)]
      omega
    · rw [hs.Priority hne]
      omega
  have hother : ∀ j ≠ rr, ¬ d.InService j := by
    intro j hj hservice
    rw [hservice.1] at hrr
    exact hj (Option.some.inj hrr)
  refine ⟨hn, hfits, fun hle => ?_, fun j => ?_, fun j hj => ?_, fun j hj => ?_⟩
  · rcases hs.turn with ⟨⟨-, hpos⟩ | hnone, -⟩ | ⟨hpointer, -, hne, -⟩
    · omega
    · exact hnone
    · obtain ⟨q, qs, hqs⟩ := List.exists_cons_of_ne_nil hne
      have hq : q ∈ d'.flowPackets l :=
        mem_flowPackets.2 ⟨rr, hrrl, by rw [hs.packets, hqs]; exact List.mem_cons_self⟩
      have hpos := List.length_pos_of_mem hq
      have htotal := hn.queued.total
      omega
  · by_cases hjr : j = rr
    · exact hjr ▸ hPriority.1
    · rw [hs.others j hjr]
      exact h.nonneg j
  · by_cases hjr : j = rr
    · subst hjr
      rcases hs.turn with ⟨-, hover⟩ | ⟨hpointer, hvar, -⟩
      · by_cases hne : rest = []
        · rw [hs.sound.Priority (hs.packets.trans hne)]
          omega
        · obtain ⟨q, qs, hqs⟩ := List.exists_cons_of_ne_nil hne
          have hover := hover.resolve_left hne
          have hq := hfits j q (by simp [hs.packets, hqs])
          rw [hs.sound.first (hs.packets.trans hqs)] at hover
          omega
      · exact absurd ⟨hpointer, hvar⟩ hj
    · rw [hs.others j hjr]
      exact h.between j (hother j hjr)
  · rcases hs.turn with ⟨hover, -⟩ | ⟨hpointer, -, -, hpay⟩
    · rcases hover with ⟨hvar, -⟩ | hnone
      · rw [hj.2] at hvar
        cases hvar
      · rw [hj.1] at hnone
        cases hnone
    · rw [hj.1] at hpointer
      obtain rfl := Option.some.inj hpointer
      exact ⟨hpay, hPriority.2⟩

/-- What a queue still has of its quotas, and what was handed out, less its quotas. -/
def Account.balance (cfg : DrrConfig) (k : Nat) (a : Account) : Int :=
  (a.drr.tbl k).Priority + a.bytes k - cfg.CreditAddedPerRound * a.turns k

/-- The turn is at the round-robin pointer. -/
theorem turn_eq (h : d.Queued cfg l) (hpos : d.DrrPacketTotal > 0) : d.turn = d.drrTableRR := by
  have hspanning := h.spanning
  have hspecial := h.special
  exact if_neg (by omega)

/-- **Step.** A call keeps the credits and the balance of every flow that stays backlogged. -/
theorem account_step {a : Account} {c : Call} (h : a.drr.Credited cfg L l) (hL : 0 < L)
    (hQ : (L : Int) ≤ cfg.CreditAddedPerRound) (hc : Fitting L c) :
    ∃ a' l', a.step cfg c = .ok a' ∧ a'.drr.Credited cfg L l' ∧
      ∀ k, a.Backlogged k → a'.Backlogged k → a'.balance cfg k = a.balance cfg k := by
  unfold Account.drr at h
  cases c with
  | send qfull x =>
    obtain ⟨d', fate, hrun, hcase⟩ := send_cases h.noted qfull (a.ledger.packet x)
    simp only [Account.step, Ledger.step, hrun, bind_ok]
    rcases hcase with ⟨u, v, rfl, hu, hv⟩ | ⟨hip, l', k, hq, hk⟩
    · refine ⟨_, l, rfl, ⟨h.noted.others hu hv, h.fits, h.idle, h.nonneg, h.between, h.during⟩,
        fun j _ _ => ?_⟩
      simp [Account.balance, Account.drr]
    · refine ⟨_, l', rfl, h.append hq hk (hc hip), fun j _ _ => ?_⟩
      have hPriority : (d'.tbl j).Priority = (a.ledger.drr.tbl j).Priority := by
        by_cases hj : j = k
        · exact hj ▸ hk.Priority
        · rw [hk.others j hj]
      simp [Account.balance, Account.drr, hPriority]
  | intrq =>
    rcases intrq_cases h.noted with ⟨hle, hrun⟩ | ⟨hpos, rr, pkt, rest, hrrl, hrr, hp,
      ⟨hpoor, -, -⟩ | ⟨-, d', hrun, hs, hn⟩⟩
    · simp only [Account.step, Ledger.step, hrun, bind_ok]
      refine ⟨_, l, rfl, h, fun j _ _ => ?_⟩
      have hturn : a.ledger.drr.turn = none := if_pos (.inr (.inr hle))
      simp [Account.balance, Account.drr, hturn]
    · exact absurd (h.pays hQ hrr hp).1 hpoor
    · have hturn : a.ledger.drr.turn = some rr := (turn_eq h.noted.queued hpos).trans hrr
      have hsent : Account.sent a.ledger.drr cfg = pkt.ip_len.toNat := by
        unfold Account.sent
        rw [hrun]
      simp only [Account.step, Ledger.step, hrun, bind_ok]
      refine ⟨_, l, rfl, h.serve hL hQ hrrl hrr hp hs hn, fun j hj hj' => ?_⟩
      by_cases hjr : j = rr
      · subst hjr
        have hne : rest ≠ [] := fun he => hj' (hs.packets.trans he)
        have hPriority := hs.Priority hne
        unfold Drr.credit at hPriority
        cases hv : a.ledger.drr.drrTableRR_var with
        | true =>
          rw [hv, if_pos rfl] at hPriority
          simp [Account.balance, Account.drr, hturn, hsent, hPriority, hv]
          ring
        | false =>
          rw [hv, if_neg (by decide)] at hPriority
          simp [Account.balance, Account.drr, hturn, hsent, hPriority, hv]
      · simp [Account.balance, Account.drr, hturn, hs.others j hjr, Ne.symm hjr]
  | Delete_que => exact absurd hc id

/-- **Run.** The balance of a flow that stays backlogged does not change. -/
theorem run_balance {k : Nat} {cs : List Call} {a a' : Account} (h : a.drr.Credited cfg L l)
    (hL : 0 < L) (hQ : (L : Int) ≤ cfg.CreditAddedPerRound) (hcs : ∀ c ∈ cs, Fitting L c)
    (hk : Run.Always (Account.step cfg) (Account.Backlogged k) a cs)
    (hrun : Run.exec (Account.step cfg) a cs = .ok a') :
    a'.balance cfg k = a.balance cfg k := by
  induction cs generalizing a l with
  | nil =>
    obtain rfl := Except.ok.inj hrun
    rfl
  | cons c cs ih =>
    obtain ⟨a₁, l₁, hstep, h₁, hbalance⟩ := account_step h hL hQ (hcs c List.mem_cons_self)
    have hk₁ := hk.2 a₁ hstep
    unfold Run.exec at hrun
    rw [hstep] at hrun
    exact (ih h₁ (fun c hc => hcs c (List.mem_cons_of_mem _ hc)) hk₁ hrun).trans
      (hbalance k hk.1 hk₁.head)

/-- Packets of two flows wait. -/
def twoFlows : List Call :=
  [.send true ⟨0x0800, 1, 2, 6, 80, 81, 1000⟩, .send true ⟨0x0800, 1, 2, 6, 80, 81, 900⟩,
    .send true ⟨0x0800, 1, 2, 17, 80, 81, 1400⟩]

end Ps
