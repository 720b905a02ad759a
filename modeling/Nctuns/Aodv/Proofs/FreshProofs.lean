import Nctuns.Aodv.Proofs.RtTableProofs

/-!
# Proofs about the freshness of routes

What a message writes into the routing table, destination by destination, and when that is at least
as fresh as what was there.
-/

namespace Aodv

open AODV_RtTable AODV

variable {cfg : Config} {e : Env} {s : AODV} {t t' : AODV_RtTable} {dst src_ip : Addr}
  {r r' : Rt_entry} {my_rreq : RREQ_msg} {my_rrep : RREP_msg} {ttl : UInt8}

/-- The second entry says no less than the first. -/
def Rt_entry.Below (r r' : Rt_entry) : Prop :=
  r.rt_seqno ≤ r'.rt_seqno ∧
    (r.rt_flags = .VALID → r'.rt_seqno = r.rt_seqno → r'.rt_hopcount ≤ r.rt_hopcount)

theorem Rt_entry.Below.refl (r : Rt_entry) : r.Below r := ⟨UInt32.le_refl _, fun _ _ => UInt8.le_refl _⟩

/-- Precursors and lifetimes do not matter. -/
theorem fresher_iff : t.Fresher t' ↔
    ∀ dst r r', t.route dst = some r → t'.route dst = some r' → r.Below r' := by
  constructor
  · intro h dst r r' hr hr'
    obtain ⟨x, hx, rfl⟩ := Option.map_eq_some_iff.1 hr
    obtain ⟨x', hx', rfl⟩ := Option.map_eq_some_iff.1 hr'
    exact h dst x x' hx hx'
  · intro h dst r r' hr hr'
    have hbare : t.route dst = some r.bare := by rw [route, hr]; rfl
    have hbare' : t'.route dst = some r'.bare := by rw [route, hr']; rfl
    exact h dst r.bare r'.bare hbare hbare'

/-! ### What is written -/

/-- The route of one hop to the previous hop. -/
def Rt_entry.simple (prevhop_ip : Addr) (r : Rt_entry) : Rt_entry :=
  { r with rt_flags := .VALID, rt_nexthop := prevhop_ip, rt_hopcount := 1 }

/-- The route to a neighbour is set. -/
theorem updateSimpleRRoute_route (s : AODV) (prevhop_ip dst : Addr) :
    (s.updateSimpleRRoute cfg e prevhop_ip).rtable.route dst =
      if dst = prevhop_ip then
        some (((s.rtable.route dst).map (Rt_entry.simple prevhop_ip)).getD
          ⟨prevhop_ip, prevhop_ip, false, e.rt_seqno, 1, .VALID, [], 0⟩)
      else s.rtable.route dst := by
  unfold AODV.updateSimpleRRoute
  exact route_upsert (Rt_entry.simple prevhop_ip) (fun _ => rfl) (fun _ => rfl) dst

/-- The node's own entry stays. -/
theorem updateSimpleRRoute_head (s : AODV) (prevhop_ip : Addr) :
    (s.updateSimpleRRoute cfg e prevhop_ip).rtable.rt_head.rt_dst = s.rtable.rt_head.rt_dst ∧
      (s.updateSimpleRRoute cfg e prevhop_ip).rtable.myOwnSeqno = s.rtable.myOwnSeqno := by
  unfold AODV.updateSimpleRRoute
  constructor
  · apply upsert_head
    intro r
    rfl
  · apply upsert_own
    exact .inl rfl

/-- The route of a RREQ to its originator. -/
def Rt_entry.reverse (src_ip : Addr) (my_rreq : RREQ_msg) (r : Rt_entry) : Rt_entry :=
  { r with
    rt_nexthop := src_ip
    rt_seqno :=
      if r.rt_valid_dst_seqno then
        if my_rreq.rreq_src_seqno > r.rt_seqno then my_rreq.rreq_src_seqno else r.rt_seqno
      else my_rreq.rreq_src_seqno
    rt_valid_dst_seqno := true
    rt_hopcount := my_rreq.rreq_hopcount
    rt_flags := .VALID }

/-- The route back to an originator is set. -/
theorem reverseRoute_route (t : AODV_RtTable) (src_ip : Addr) (my_rreq : RREQ_msg) (dst : Addr) :
    (reverseRoute cfg e t src_ip my_rreq).route dst =
      if dst = my_rreq.rreq_src_addr then
        some (((t.route dst).map (Rt_entry.reverse src_ip my_rreq)).getD
          ⟨my_rreq.rreq_src_addr, src_ip, true, my_rreq.rreq_src_seqno, my_rreq.rreq_hopcount, .VALID,
            [], 0⟩)
      else t.route dst := by
  unfold reverseRoute
  exact route_upsert (Rt_entry.reverse src_ip my_rreq) (fun _ => rfl) (fun _ => rfl) dst

/-- The node's own entry stays, unless the originator is the node. -/
theorem reverseRoute_head (h : my_rreq.rreq_src_addr ≠ t.rt_head.rt_dst) :
    (reverseRoute cfg e t src_ip my_rreq).rt_head.rt_dst = t.rt_head.rt_dst ∧
      (reverseRoute cfg e t src_ip my_rreq).myOwnSeqno = t.myOwnSeqno := by
  unfold reverseRoute
  constructor
  · apply upsert_head
    intro r
    rfl
  · apply upsert_own
    exact .inr h

/-- The route of a RREP to its destination. -/
def Rt_entry.forward (src_ip : Addr) (my_rrep : RREP_msg) (r : Rt_entry) : Rt_entry :=
  if needUpdate my_rrep r then
    { r with
      rt_flags := .VALID
      rt_valid_dst_seqno := true
      rt_nexthop := src_ip
      rt_hopcount := my_rrep.rrep_hopcount
      rt_seqno := my_rrep.rrep_dst_seqno }
  else r

/-- The route to a destination is set. -/
theorem forwardRoute_route (t : AODV_RtTable) (src_ip : Addr) (my_rrep : RREP_msg) (dst : Addr) :
    (forwardRoute e t src_ip my_rrep).route dst =
      if dst = my_rrep.rrep_dst_addr then
        some (((t.route dst).map (Rt_entry.forward src_ip my_rrep)).getD
          ⟨my_rrep.rrep_dst_addr, src_ip, true, my_rrep.rrep_dst_seqno, my_rrep.rrep_hopcount, .VALID,
            [], 0⟩)
      else t.route dst := by
  unfold forwardRoute
  refine route_upsert (Rt_entry.forward src_ip my_rrep) (fun r => ?_) (fun r => ?_) dst
  · unfold Rt_entry.forward
    split <;> rfl
  · have hneed : needUpdate my_rrep r.bare = needUpdate my_rrep r := rfl
    unfold Rt_entry.forward
    rw [hneed]
    split <;> rfl

/-- An answer counts the node's own number up, or nothing. -/
theorem answerRREQ_route (s : AODV) (hown : s.rtable.rt_head.rt_dst = s.mip) :
    (s.answerRREQ cfg e src_ip ttl my_rreq).rtable.route dst =
      if dst = s.mip ∧ s.Increments my_rreq then
        (s.rtable.route dst).map fun r => { r with rt_seqno := r.rt_seqno + 1 }
      else s.rtable.route dst := by
  have hforward : (if ttl - 1 ≠ 0 then s.forwardRREQ my_rreq (ttl - 1) else s).rtable = s.rtable := by
    split <;> rfl
  unfold answerRREQ
  by_cases hdst : my_rreq.rreq_dst_addr = s.mip
  · simp only [if_pos hdst]
    by_cases hinc : my_rreq.U = false ∧ my_rreq.rreq_dst_seqno = s.rtable.myOwnSeqno + 1
    · have hinc' : s.Increments my_rreq := ⟨hdst, hinc⟩
      simp only [if_pos hinc, hinc', and_true]
      show s.rtable.incMyOwnSeqno.route dst = _
      rw [route_incMyOwnSeqno, hown]
    · have hinc' : ¬ (dst = s.mip ∧ s.Increments my_rreq) := fun h => hinc h.2.2
      rw [if_neg hinc, if_neg hinc']
      rfl
  · have hno : ¬ (dst = s.mip ∧ s.Increments my_rreq) := fun h => hdst h.2.1
    simp only [if_neg hdst, if_neg hno]
    split
    · split
      · split
        · simp [sendRREP]
        · simp [sendRREP]
      · rw [hforward]
    · rw [hforward]

/-- A request that is not processed. -/
theorem recvRREQ_skips (h : ¬ s.Processes my_rreq) :
    (s.recvRREQ cfg e src_ip ttl my_rreq).rtable = (s.updateSimpleRRoute cfg e src_ip).rtable := by
  unfold recvRREQ
  have hmip : (s.updateSimpleRRoute cfg e src_ip).mip = s.mip := rfl
  have hbcache : (s.updateSimpleRRoute cfg e src_ip).bcache = s.bcache := rfl
  simp only [hmip, hbcache]
  split
  · rfl
  · rename_i hsrc
    have hdup : (updateBcache cfg e my_rreq s.bcache).2 = true := by
      have hdup : (checkRREQ my_rreq s.bcache).2 = true := by
        by_contra hdup
        exact h ⟨hsrc, by simpa using hdup⟩
      unfold updateBcache
      simp [hdup]
    rw [if_pos hdup]

/-- What a RREQ that is processed leaves of the routes. -/
theorem recvRREQ_route (hown : s.rtable.rt_head.rt_dst = s.mip) (h : s.Processes my_rreq)
    (dst : Addr) : (s.recvRREQ cfg e src_ip ttl my_rreq).rtable.route dst =
      if dst = s.mip ∧ s.Increments my_rreq then
        ((s.updateSimpleRRoute cfg e src_ip).rtable.route dst).map fun r =>
          { r with rt_seqno := r.rt_seqno + 1 }
      else
        (reverseRoute cfg e (s.updateSimpleRRoute cfg e src_ip).rtable src_ip
          { my_rreq with rreq_hopcount := my_rreq.rreq_hopcount + 1 }).route dst := by
  have hdup : (updateBcache cfg e my_rreq s.bcache).2 = false := by
    unfold updateBcache
    simp only [h.2, Bool.false_eq_true, if_false]
    split <;> rfl
  unfold recvRREQ
  have hmip : (s.updateSimpleRRoute cfg e src_ip).mip = s.mip := rfl
  have hbcache : (s.updateSimpleRRoute cfg e src_ip).bcache = s.bcache := rfl
  simp only [hmip, hbcache, if_neg h.1, hdup, Bool.false_eq_true, if_false]
  generalize hs₁ : (s.updateSimpleRRoute cfg e src_ip).rtable = t₁
  have hhead : t₁.rt_head.rt_dst = s.mip := hs₁ ▸ (updateSimpleRRoute_head s src_ip).1.trans hown
  have hseqno : t₁.myOwnSeqno = s.rtable.myOwnSeqno := hs₁ ▸ (updateSimpleRRoute_head s src_ip).2
  obtain ⟨hhead₂, hseqno₂⟩ := @reverseRoute_head cfg e t₁ src_ip
    { my_rreq with rreq_hopcount := my_rreq.rreq_hopcount + 1 } (hhead ▸ h.1)
  unfold processRREQ
  simp only
  obtain ⟨_, _, _, _, hs₂⟩ := @processBoth_frame e _ my_rreq.rreq_src_addr src_ip
  rw [hs₂]
  generalize hs₃ : AODV.mk _ _ _ _ _ _ _ _ _ _ _ _ = s₂
  have hrtable : s₂.rtable = reverseRoute cfg e t₁ src_ip
      { my_rreq with rreq_hopcount := my_rreq.rreq_hopcount + 1 } := hs₃ ▸ hs₁ ▸ rfl
  have hmip₂ : s₂.mip = s.mip := hs₃ ▸ rfl
  have hinc : s₂.Increments { my_rreq with rreq_hopcount := my_rreq.rreq_hopcount + 1 } ↔
      s.Increments my_rreq := by
    unfold Increments
    rw [hmip₂, hrtable, hseqno₂, hseqno]
  rw [answerRREQ_route s₂ (by rw [hrtable, hhead₂, hhead, hmip₂]), hrtable, hmip₂]
  simp only [hinc]
  by_cases hdst : dst = s.mip ∧ s.Increments my_rreq
  · rw [if_pos hdst, if_pos hdst, reverseRoute_route, if_neg]
    rw [hdst.1]
    exact Ne.symm h.1
  · rw [if_neg hdst, if_neg hdst]

/-- What a RREP leaves of the routes. -/
theorem recvRREP_route (s : AODV) (dst : Addr) :
    (s.recvRREP cfg e src_ip ttl my_rrep).rtable.route dst =
      (forwardRoute e (s.updateSimpleRRoute cfg e src_ip).rtable src_ip
        { my_rrep with rrep_hopcount := my_rrep.rrep_hopcount + 1 }).route dst := by
  unfold recvRREP
  simp only
  obtain ⟨_, _, _, _, hs₂⟩ := @processBoth_frame e _ my_rrep.rrep_dst_addr src_ip
  rw [hs₂]
  generalize hs₃ : AODV.mk _ _ _ _ _ _ _ _ _ _ _ _ = s₂
  have hrtable : s₂.rtable = forwardRoute e (s.updateSimpleRRoute cfg e src_ip).rtable src_ip
      { my_rrep with rrep_hopcount := my_rrep.rrep_hopcount + 1 } := hs₃ ▸ rfl
  rw [← hrtable]
  split
  · rfl
  · unfold passRREP
    split
    · rfl
    · rename_i rt_s _
      have hroute : ((((s₂.rtable.updatePrecursorList my_rrep.rrep_dst_addr
          rt_s.rt_nexthop).updatePrecursorList src_ip rt_s.rt_nexthop).write my_rrep.rrep_ori_addr
          fun r => { r with rt_time :=
            if r.rt_time < e.now + cfg.active_route_timeout_ then e.now + cfg.active_route_timeout_
            else r.rt_time }).route dst) = s₂.rtable.route dst := by
        rw [route_write_same, route_updatePrecursorList, route_updatePrecursorList]
        intro r
        rfl
      simp only
      split
      · unfold forwardRREP
        split
        · split
          · exact hroute
          · exact hroute
        · exact hroute
      · exact hroute

/-- The route of a Hello. -/
def Rt_entry.hello (src_ip : Addr) (my_rrep : RREP_msg) (r : Rt_entry) : Rt_entry :=
  { r with
    rt_nexthop := src_ip
    rt_valid_dst_seqno := true
    rt_seqno := my_rrep.rrep_dst_seqno
    rt_hopcount := my_rrep.rrep_hopcount + 1
    rt_flags := .VALID }

/-- The route to the sender of a hello is set. -/
theorem recvHello_route (s : AODV) (dst : Addr) :
    (s.recvHello cfg e src_ip my_rrep).rtable.route dst =
      if dst = my_rrep.rrep_dst_addr then
        some (((s.rtable.route dst).map (Rt_entry.hello src_ip my_rrep)).getD
          ⟨my_rrep.rrep_dst_addr, src_ip, true, my_rrep.rrep_dst_seqno, my_rrep.rrep_hopcount + 1,
            .VALID, [], 0⟩)
      else s.rtable.route dst := by
  unfold recvHello
  exact route_upsert (Rt_entry.hello src_ip my_rrep) (fun _ => rfl) (fun _ => rfl) dst

/-- Warnings leave the table. -/
theorem warn_rtable {unr_list : List (Addr × UInt32)} {l : List Nei_entry} :
    (s.warn cfg unr_list l).rtable = s.rtable := by
  unfold warn
  induction l generalizing s with
  | nil => rfl
  | cons n l ih =>
    rw [List.foldl_cons, ih]
    split <;> rfl

/-- Warnings leave the table. -/
theorem warnPrecursors_rtable {unr_list l : List (Addr × UInt32)} :
    (l.foldl (warnPrecursors cfg unr_list) s).rtable = s.rtable := by
  induction l generalizing s with
  | nil => rfl
  | cons p l ih =>
    rw [List.foldl_cons, ih]
    unfold warnPrecursors
    split
    · exact warn_rtable
    · rfl

/-- An entry that a RERR has made invalid. -/
def Rt_entry.invalid (r : Rt_entry) : Rt_entry := { r with rt_flags := .INVALID }

/-- A RERR leaves numbers and hop counts. -/
theorem recvRERR_route (s : AODV) (unreach : List (Addr × UInt32)) (dst : Addr) :
    (s.recvRERR cfg src_ip unreach).rtable.route dst = s.rtable.route dst ∨
      (s.recvRERR cfg src_ip unreach).rtable.route dst =
        (s.rtable.route dst).map Rt_entry.invalid := by
  have hfold : ∀ (l : List (Addr × UInt32)) (x : AODV_RtTable × List (Addr × UInt32)),
      x.1.route dst = s.rtable.route dst ∨
        x.1.route dst = (s.rtable.route dst).map Rt_entry.invalid →
      (l.foldl (invalidate src_ip) x).1.route dst = s.rtable.route dst ∨
        (l.foldl (invalidate src_ip) x).1.route dst =
          (s.rtable.route dst).map Rt_entry.invalid := by
    intro l
    induction l with
    | nil => exact fun _ => id
    | cons p l ih =>
      intro x hx
      refine ih _ ?_
      unfold invalidate
      split
      · split
        · rw [route_write Rt_entry.invalid (fun _ => rfl) fun _ => rfl]
          by_cases hdst : dst = p.1
          · rw [if_pos hdst]
            right
            rcases hx with hx | hx
            · rw [hx]
            · rw [hx, Option.map_map]
              rfl
          · rw [if_neg hdst]
            exact hx
        · exact hx
      · exact hx
  unfold recvRERR
  rw [warnPrecursors_rtable]
  exact hfold unreach (s.rtable, []) (.inl rfl)

/-! ### When it is as fresh -/

/-- The route to a neighbour. -/
theorem below_simple (src_ip : Addr) (r : Rt_entry) :
    r.Below (r.simple src_ip) ↔ (r.rt_flags = .VALID → 1 ≤ r.rt_hopcount) :=
  ⟨fun h hv => h.2 hv rfl, fun h => ⟨UInt32.le_refl _, fun hv _ => h hv⟩⟩

theorem below_hello (src_ip : Addr) (my_rrep : RREP_msg) (r : Rt_entry) : r.Below (r.hello src_ip my_rrep) ↔
    r.Admits my_rrep.rrep_dst_seqno (my_rrep.rrep_hopcount + 1) := Iff.rfl

/-- The route back to an originator. -/
theorem below_reverse (src_ip : Addr) (my_rreq : RREQ_msg) (r : Rt_entry) :
    r.Below (r.reverse src_ip my_rreq) ↔
    (r.rt_valid_dst_seqno = true ∨ r.rt_seqno ≤ my_rreq.rreq_src_seqno) ∧
      (r.rt_flags = .VALID → my_rreq.rreq_src_seqno ≤ r.rt_seqno →
        my_rreq.rreq_hopcount ≤ r.rt_hopcount) := by
  unfold Rt_entry.Below Rt_entry.reverse
  simp only
  grind [UInt32.le_iff_toNat_le, UInt32.lt_iff_toNat_lt, UInt32.toNat_inj]

/-- A table of which every entry is still there, as `g` says. -/
theorem fresher_of_map {g : Addr → Rt_entry → Rt_entry}
    (h : ∀ dst r, t.route dst = some r → t'.route dst = some (g dst r)) :
    t.Fresher t' ↔ ∀ dst r, t.route dst = some r → r.Below (g dst r) := by
  rw [fresher_iff]
  constructor
  · intro hall dst r hr
    exact hall dst r (g dst r) hr (h dst r hr)
  · intro hall dst r r' hr hr'
    rw [h dst r hr] at hr'
    exact Option.some.inj hr' ▸ hall dst r hr

/-- A route that is known. -/
theorem updateSimpleRRoute_entry (hr : s.rtable.route dst = some r) :
    (s.updateSimpleRRoute cfg e src_ip).rtable.route dst =
      some (if dst = src_ip then r.simple src_ip else r) := by
  rw [updateSimpleRRoute_route, hr]
  split <;> rfl

/-- A route that is known, when a request is processed. -/
theorem recvRREQ_entry (hown : s.rtable.rt_head.rt_dst = s.mip) (h : s.Processes my_rreq)
    (hr : s.rtable.route dst = some r) :
    (s.recvRREQ cfg e src_ip ttl my_rreq).rtable.route dst =
      some (if dst = s.mip ∧ s.Increments my_rreq then
          (fun r : Rt_entry => { r with rt_seqno := r.rt_seqno + 1 })
            (if dst = src_ip then r.simple src_ip else r)
        else if dst = my_rreq.rreq_src_addr then
          r.reverse src_ip { my_rreq with rreq_hopcount := my_rreq.rreq_hopcount + 1 }
        else if dst = src_ip then r.simple src_ip else r) := by
  rw [recvRREQ_route hown h, reverseRoute_route, updateSimpleRRoute_entry hr]
  by_cases hinc : dst = s.mip ∧ s.Increments my_rreq
  · rw [if_pos hinc, if_pos hinc]
    rfl
  · rw [if_neg hinc, if_neg hinc]
    by_cases hsrc : dst = my_rreq.rreq_src_addr
    · rw [if_pos hsrc, if_pos hsrc]
      split <;> rfl
    · rw [if_neg hsrc, if_neg hsrc]

/-- **A route request.**. -/
theorem recvRREQ_fresher (hown : s.rtable.rt_head.rt_dst = s.mip) :
    s.rtable.Fresher (s.recvRREQ cfg e src_ip ttl my_rreq).rtable ↔
      s.AdmitsRREQ src_ip my_rreq := by
  by_cases h : s.Processes my_rreq
  · rw [fresher_of_map fun dst r hr => recvRREQ_entry hown h hr]
    constructor
    · intro hall
      refine ⟨fun hnot r hr => ?_, fun _ r hr => ?_, fun _ hinc => ?_⟩
      · have hbelow := hall src_ip r.bare (congrArg (Option.map Rt_entry.bare) hr)
        have hinc : ¬ (src_ip = s.mip ∧ s.Increments my_rreq) := fun hi => hnot ⟨h, .inr hi.symm⟩
        have hsrc : ¬ src_ip = my_rreq.rreq_src_addr := fun hi => hnot ⟨h, .inl hi.symm⟩
        rw [if_neg hinc, if_neg hsrc, if_pos rfl] at hbelow
        exact (below_simple src_ip r.bare).1 hbelow
      · have hbelow := hall my_rreq.rreq_src_addr r.bare (congrArg (Option.map Rt_entry.bare) hr)
        have hinc : ¬ (my_rreq.rreq_src_addr = s.mip ∧ s.Increments my_rreq) := fun hi => h.1 hi.1
        rw [if_neg hinc, if_pos rfl] at hbelow
        exact (below_reverse src_ip _ r.bare).1 hbelow
      · have hhead := route_head s.rtable
        rw [hown] at hhead
        have hbelow := (hall s.mip _ hhead).1
        rw [if_pos ⟨rfl, hinc⟩] at hbelow
        split at hbelow <;> exact hbelow
    · rintro ⟨hprevhop, horiginator, hincr⟩ dst r hr
      obtain ⟨x, hx, rfl⟩ := Option.map_eq_some_iff.1 hr
      split
      · rename_i hinc
        have hhead := route_head s.rtable
        rw [hown, ← hinc.1, hr] at hhead
        have hbare : x.bare = s.rtable.rt_head.bare := Option.some.inj hhead
        have hown' : x.bare.rt_seqno = s.rtable.rt_head.bare.rt_seqno := by rw [hbare]
        have hle : s.rtable.rt_head.bare.rt_seqno ≤ s.rtable.rt_head.bare.rt_seqno + 1 :=
          hincr h hinc.2
        rw [← hown'] at hle
        have hne : x.bare.rt_seqno + 1 ≠ x.bare.rt_seqno := by grind
        split
        · exact ⟨hle, fun _ hseqno => absurd hseqno hne⟩
        · exact ⟨hle, fun _ hseqno => absurd hseqno hne⟩
      · rename_i hinc
        split
        · rename_i hsrc
          subst hsrc
          exact (below_reverse src_ip _ x.bare).2 (horiginator h x hx)
        · rename_i hsrc
          split
          · rename_i hdst
            subst hdst
            refine (below_simple dst x.bare).2 (hprevhop ?_ x hx)
            rintro ⟨-, hi | hi⟩
            · exact hsrc hi.symm
            · exact hinc hi.symm
          · exact Rt_entry.Below.refl _
  · rw [recvRREQ_skips h, fresher_of_map fun dst r hr => updateSimpleRRoute_entry hr]
    constructor
    · intro hall
      refine ⟨fun _ r hr => ?_, fun hp => absurd hp h, fun hp => absurd hp h⟩
      have hbelow := hall src_ip r.bare (congrArg (Option.map Rt_entry.bare) hr)
      rw [if_pos rfl] at hbelow
      exact (below_simple src_ip r.bare).1 hbelow
    · rintro ⟨hprevhop, -, -⟩ dst r hr
      obtain ⟨x, hx, rfl⟩ := Option.map_eq_some_iff.1 hr
      split
      · rename_i hdst
        subst hdst
        exact (below_simple dst x.bare).2 (hprevhop (fun hp => h hp.1) x hx)
      · exact Rt_entry.Below.refl _

/-- When a reply is taken. -/
theorem needUpdate_iff : needUpdate my_rrep r = true ↔
    r.rt_valid_dst_seqno = false ∨ my_rrep.rrep_dst_seqno > r.rt_seqno ∨
      my_rrep.rrep_dst_seqno = r.rt_seqno ∧
        (r.rt_flags ≠ .VALID ∨ my_rrep.rrep_hopcount < r.rt_hopcount) := by
  unfold needUpdate
  cases r.rt_valid_dst_seqno <;> simp

/-- A RREP replaces an entry with a valid number by a fresher one only. -/
theorem below_forward (src_ip : Addr) (my_rrep : RREP_msg) (r : Rt_entry) :
    r.Below (r.forward src_ip my_rrep) ↔
      (r.rt_valid_dst_seqno = false → r.Admits my_rrep.rrep_dst_seqno my_rrep.rrep_hopcount) := by
  have hneed := @needUpdate_iff r my_rrep
  unfold Rt_entry.forward
  by_cases h : needUpdate my_rrep r = true
  · rw [if_pos h]
    unfold Rt_entry.Below Rt_entry.Admits
    grind [UInt32.le_iff_toNat_le, UInt32.lt_iff_toNat_lt, UInt8.le_iff_toNat_le, UInt8.lt_iff_toNat_lt]
  · rw [if_neg h]
    have hvalid : r.rt_valid_dst_seqno ≠ false := fun hv => h (hneed.2 (.inl hv))
    exact ⟨fun _ hv => absurd hv hvalid, fun _ => Rt_entry.Below.refl r⟩

/-- The destination is the previous hop: the entry is written twice. -/
theorem below_forward_simple (src_ip : Addr) (my_rrep : RREP_msg) (r : Rt_entry) :
    r.Below ((r.simple src_ip).forward src_ip my_rrep) ↔
      ((r.rt_valid_dst_seqno = true ∧ my_rrep.rrep_dst_seqno ≤ r.rt_seqno ∧
          (my_rrep.rrep_dst_seqno = r.rt_seqno → my_rrep.rrep_hopcount ≠ 0) →
        r.rt_flags = .VALID → 1 ≤ r.rt_hopcount) ∧
      (r.rt_valid_dst_seqno = false → r.Admits my_rrep.rrep_dst_seqno my_rrep.rrep_hopcount)) := by
  have hneed := @needUpdate_iff (r.simple src_ip) my_rrep
  unfold Rt_entry.forward
  by_cases h : needUpdate my_rrep (r.simple src_ip) = true
  · rw [if_pos h]
    unfold Rt_entry.Below Rt_entry.Admits
    unfold Rt_entry.simple at *
    grind [UInt32.le_iff_toNat_le, UInt32.lt_iff_toNat_lt, UInt8.le_iff_toNat_le, UInt8.lt_iff_toNat_lt]
  · rw [if_neg h]
    unfold Rt_entry.Below Rt_entry.Admits
    unfold Rt_entry.simple at *
    grind [UInt32.le_iff_toNat_le, UInt32.lt_iff_toNat_lt, UInt8.le_iff_toNat_le, UInt8.lt_iff_toNat_lt]

/-- A route that is known, when a reply arrives. -/
theorem recvRREP_entry (hr : s.rtable.route dst = some r) :
    (s.recvRREP cfg e src_ip ttl my_rrep).rtable.route dst =
      some (if dst = my_rrep.rrep_dst_addr then
        Rt_entry.forward src_ip { my_rrep with rrep_hopcount := my_rrep.rrep_hopcount + 1 }
          (if dst = src_ip then r.simple src_ip else r)
        else if dst = src_ip then r.simple src_ip else r) := by
  rw [recvRREP_route, forwardRoute_route, updateSimpleRRoute_entry hr]
  split <;> rfl

/-- **A route reply.**. -/
theorem recvRREP_fresher :
    s.rtable.Fresher (s.recvRREP cfg e src_ip ttl my_rrep).rtable ↔ s.AdmitsRREP src_ip my_rrep := by
  rw [fresher_of_map fun dst r hr => recvRREP_entry hr]
  constructor
  · intro hall
    refine ⟨fun r hr => ?_, fun r hr => ?_⟩
    · have hbelow := hall src_ip r.bare (congrArg (Option.map Rt_entry.bare) hr)
      by_cases hdst : my_rrep.rrep_dst_addr = src_ip
      · rw [if_pos hdst.symm, if_pos rfl] at hbelow
        intro hkeep
        exact ((below_forward_simple src_ip _ r.bare).1 hbelow).1 (hkeep hdst)
      · rw [if_neg (Ne.symm hdst), if_pos rfl] at hbelow
        exact fun _ => (below_simple src_ip r.bare).1 hbelow
    · have hbelow := hall my_rrep.rrep_dst_addr r.bare (congrArg (Option.map Rt_entry.bare) hr)
      rw [if_pos rfl] at hbelow
      split at hbelow
      · exact ((below_forward_simple src_ip _ r.bare).1 hbelow).2
      · exact (below_forward src_ip _ r.bare).1 hbelow
  · rintro ⟨hprevhop, hdestination⟩ dst r hr
    obtain ⟨x, hx, rfl⟩ := Option.map_eq_some_iff.1 hr
    by_cases hdst : dst = my_rrep.rrep_dst_addr
    · subst hdst
      rw [if_pos rfl]
      have hadmits := hdestination x hx
      by_cases hsrc : my_rrep.rrep_dst_addr = src_ip
      · subst hsrc
        rw [if_pos rfl]
        exact (below_forward_simple _ _ x.bare).2 ⟨fun hkeep => hprevhop x hx fun _ => hkeep, hadmits⟩
      · rw [if_neg hsrc]
        exact (below_forward src_ip _ x.bare).2 hadmits
    · rw [if_neg hdst]
      by_cases hsrc : dst = src_ip
      · subst hsrc
        rw [if_pos rfl]
        exact (below_simple dst x.bare).2 (hprevhop x hx fun hsrc => absurd hsrc.symm hdst)
      · rw [if_neg hsrc]
        exact Rt_entry.Below.refl _

/-- **A hello.**. -/
theorem recvHello_fresher : s.rtable.Fresher (s.recvHello cfg e src_ip my_rrep).rtable ↔
    ∀ r ∈ s.rtable.rt_get my_rrep.rrep_dst_addr,
      r.Admits my_rrep.rrep_dst_seqno (my_rrep.rrep_hopcount + 1) := by
  have hentry : ∀ dst r, s.rtable.route dst = some r →
      (s.recvHello cfg e src_ip my_rrep).rtable.route dst =
        some (if dst = my_rrep.rrep_dst_addr then r.hello src_ip my_rrep else r) := by
    intro dst r hr
    rw [recvHello_route, hr]
    split <;> rfl
  rw [fresher_of_map hentry]
  constructor
  · intro hall r hr
    have hbelow := hall my_rrep.rrep_dst_addr r.bare (congrArg (Option.map Rt_entry.bare) hr)
    rw [if_pos rfl] at hbelow
    exact (below_hello src_ip my_rrep r.bare).1 hbelow
  · intro hadmits dst r hr
    obtain ⟨x, hx, rfl⟩ := Option.map_eq_some_iff.1 hr
    split
    · rename_i hdst
      subst hdst
      exact (below_hello src_ip my_rrep x.bare).2 (hadmits x hx)
    · exact Rt_entry.Below.refl _

/-- **A route error.**. -/
theorem recvRERR_fresher (unreach : List (Addr × UInt32)) :
    s.rtable.Fresher (s.recvRERR cfg src_ip unreach).rtable := by
  rw [fresher_iff]
  intro dst r r' hr hr'
  rcases @recvRERR_route cfg src_ip s unreach dst with hsame | hsame
  · rw [hsame, hr] at hr'
    exact Option.some.inj hr' ▸ Rt_entry.Below.refl r
  · rw [hsame, hr] at hr'
    obtain rfl := Option.some.inj hr'
    exact ⟨UInt32.le_refl _, fun _ _ => UInt8.le_refl _⟩

/-- **Freshness.** A message keeps the routes fresh exactly if the table admits what it writes. -/
theorem recv_fresher_iff (cfg : Config) (e : Env) (s : AODV) (my_pkt : AODV_packet)
    (hown : s.rtable.rt_head.rt_dst = s.mip) :
    s.rtable.Fresher (s.recv cfg e my_pkt).rtable ↔ s.AdmitsMsg my_pkt := by
  unfold recv AdmitsMsg
  cases my_pkt.msg with
  | rreq my_rreq => exact recvRREQ_fresher hown
  | rrep my_rrep =>
    simp only
    split
    · exact recvHello_fresher
    · exact recvRREP_fresher
  | rerr unreach => exact ⟨fun _ => trivial, fun _ => recvRERR_fresher unreach⟩

/-- The clock, an idle module below, and memory that holds zeros. -/
def at_ (now : UInt64) : Env := ⟨now, fun _ => false, 0, 0, 0⟩

/-- Node 1 has a route of two hops to node 2, with the number 7. -/
def twoHops : AODV :=
  { AODV.init 1 with
    rtable := ⟨(AODV.init 1).rtable.rt_head, [⟨2, 3, true, 7, 2, .VALID, [], 60000000⟩]⟩ }

/-- A Hello of node 2 that carries the number of its route. -/
def hello (rrep_dst_seqno : UInt32) : AODV_packet :=
  ⟨2, BROADCAST, 1, .rrep ⟨0, 2, rrep_dst_seqno, 0, 20000000⟩⟩

/-- A hello that is newer than the route to its sender. -/
theorem recv_fresher_iff_hello :
    twoHops.rtable.Fresher (twoHops.recv .defaults (at_ 0) (hello 7)).rtable :=
  (recv_fresher_iff .defaults (at_ 0) twoHops (hello 7) rfl).2 (by
    intro r hr
    obtain rfl := Option.some.inj (show some _ = some r from hr)
    exact ⟨by decide, fun _ _ => by decide⟩)

/-- A Hello that comes late takes the number back. -/
theorem hello_lowers_number :
    ¬ twoHops.rtable.Fresher (twoHops.recv .defaults (at_ 0) (hello 6)).rtable := by
  intro h
  exact absurd (h 2 _ _ rfl rfl).1 (by decide)

end Aodv
