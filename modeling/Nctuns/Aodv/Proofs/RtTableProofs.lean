import Nctuns.Aodv.Aodv

/-!
# Proofs about the routing table

What an entry says about the route is all but its precursors and its lifetime. The calls that send and
queue leave every route as it is.
-/

namespace Aodv

variable {cfg : Config} {e : Env} {t : AODV_RtTable} {ip dst : Addr} {f : Rt_entry → Rt_entry}
  {r new : Rt_entry}

/-! ### Entries -/

/-- The entry without its precursors and its lifetime. -/
def Rt_entry.bare (r : Rt_entry) : Rt_entry := { r with rt_preclist := [], rt_time := 0 }

namespace AODV_RtTable

/-- What the table says about a destination. -/
def route (t : AODV_RtTable) (dst : Addr) : Option Rt_entry := (t.rt_get dst).map Rt_entry.bare

theorem rt_get_eq (t : AODV_RtTable) (dst : Addr) :
    t.rt_get dst = if t.rt_head.rt_dst = dst then some t.rt_head
      else Keyed.get Rt_entry.rt_dst dst t.next := Keyed.get_cons _ _

theorem rt_get_write (hf : ∀ r, (f r).rt_dst = r.rt_dst) (dst : Addr) :
    (t.write ip f).rt_get dst = if dst = ip then (t.rt_get ip).map f else t.rt_get dst := by
  unfold write
  by_cases hhead : t.rt_head.rt_dst = ip
  · rw [if_pos hhead, rt_get_eq, rt_get_eq t dst, rt_get_eq t ip]
    simp only [hf, hhead]
    by_cases hdst : dst = ip
    · simp [hdst]
    · simp [hdst, Ne.symm hdst]
  · rw [if_neg hhead, rt_get_eq, rt_get_eq t dst, rt_get_eq t ip,
      Keyed.get_update fun r hr => (hf r).trans hr]
    by_cases hdst : dst = ip
    · simp [hdst, hhead]
    · simp [hdst]

theorem rt_get_insert (t : AODV_RtTable) (r : Rt_entry) (dst : Addr) :
    (t.insert r).rt_get dst = (t.rt_get dst).or (if r.rt_dst = dst then some r else none) := by
  show Keyed.get Rt_entry.rt_dst dst (t.rt_head :: (t.next ++ [r])) = _
  rw [← List.cons_append, Keyed.get_append]
  congr 1
  simp

theorem rt_get_upsert (hf : ∀ r, (f r).rt_dst = r.rt_dst) (dst : Addr) :
    (t.upsert new f).rt_get dst =
      if dst = new.rt_dst then some (((t.rt_get dst).map f).getD new) else t.rt_get dst := by
  unfold upsert
  cases hnew : t.rt_get new.rt_dst with
  | none =>
    simp only
    rw [rt_get_insert]
    by_cases hdst : dst = new.rt_dst
    · simp [hdst, hnew]
    · simp [hdst, Ne.symm hdst]
  | some r =>
    simp only
    rw [rt_get_write hf]
    by_cases hdst : dst = new.rt_dst
    · simp [hdst, hnew]
    · simp [hdst]

/-- What is written, `g` says without precursors and lifetimes. -/
theorem route_upsert (g : Rt_entry → Rt_entry) (hg : ∀ r, (g r).rt_dst = r.rt_dst)
    (hf : ∀ r, (f r).bare = g r.bare) (dst : Addr) : (t.upsert new f).route dst =
      if dst = new.rt_dst then some (((t.route dst).map g).getD new.bare) else t.route dst := by
  have hdst : ∀ r, (f r).rt_dst = r.rt_dst := by
    intro r
    show (f r).bare.rt_dst = r.bare.rt_dst
    rw [hf, hg]
  unfold route
  rw [rt_get_upsert hdst]
  by_cases h : dst = new.rt_dst
  · rw [if_pos h, if_pos h]
    cases t.rt_get dst with
    | none => rfl
    | some r => simp [hf r]
  · rw [if_neg h, if_neg h]

theorem route_write (g : Rt_entry → Rt_entry) (hg : ∀ r, (g r).rt_dst = r.rt_dst)
    (hf : ∀ r, (f r).bare = g r.bare) (dst : Addr) : (t.write ip f).route dst =
      if dst = ip then (t.route dst).map g else t.route dst := by
  have hdst : ∀ r, (f r).rt_dst = r.rt_dst := by
    intro r
    show (f r).bare.rt_dst = r.bare.rt_dst
    rw [hf, hg]
  unfold route
  rw [rt_get_write hdst]
  by_cases h : dst = ip
  · rw [if_pos h, if_pos h, h]
    cases t.rt_get ip with
    | none => rfl
    | some r => simp [hf r]
  · rw [if_neg h, if_neg h]

theorem upsert_head (hf : ∀ r, (f r).rt_dst = r.rt_dst) :
    (t.upsert new f).rt_head.rt_dst = t.rt_head.rt_dst := by
  unfold upsert write
  split
  · rfl
  · split
    · exact hf _
    · rfl

theorem upsert_own (h : (f t.rt_head).rt_seqno = t.rt_head.rt_seqno ∨ new.rt_dst ≠ t.rt_head.rt_dst) :
    (t.upsert new f).myOwnSeqno = t.myOwnSeqno := by
  unfold upsert write myOwnSeqno
  split
  · rfl
  · split
    · rename_i hhead
      exact h.resolve_right fun hne => hne hhead.symm
    · rfl

/-- The first entry is found under its destination. -/
theorem route_head (t : AODV_RtTable) : t.route t.rt_head.rt_dst = some t.rt_head.bare := by
  unfold route
  rw [rt_get_eq, if_pos rfl]
  rfl

theorem route_incMyOwnSeqno (t : AODV_RtTable) (dst : Addr) :
    t.incMyOwnSeqno.route dst =
      if dst = t.rt_head.rt_dst then
        (t.route dst).map fun r => { r with rt_seqno := r.rt_seqno + 1 }
      else t.route dst := by
  unfold route incMyOwnSeqno
  rw [rt_get_eq, rt_get_eq t dst]
  by_cases h : dst = t.rt_head.rt_dst
  · subst h
    simp [Rt_entry.bare]
  · rw [if_neg (Ne.symm h), if_neg (Ne.symm h), if_neg h]

/-- A change of precursors and lifetimes only. -/
theorem route_write_same (hf : ∀ r, (f r).bare = r.bare) (dst : Addr) :
    (t.write ip f).route dst = t.route dst := by
  rw [route_write id (fun _ => rfl) hf]
  simp

@[simp] theorem route_updatePrecursorList (t : AODV_RtTable) (dst_addr nei_addr : Addr) :
    (t.updatePrecursorList dst_addr nei_addr).route dst = t.route dst := by
  unfold updatePrecursorList
  refine route_write_same ?_ dst
  intro r
  rfl

end AODV_RtTable

/-! ### Calls that leave the table -/

namespace AODV

variable {s : AODV} {pkt : Data} {gw : Addr} {l : List Data}

@[simp] theorem put_rtable (s : AODV) (o : Out) : (s.put o).rtable = s.rtable := rfl

theorem sendToQueue_frame (s : AODV) (pkt : Data) :
    ∃ rd_queue out, s.sendToQueue e pkt = { s with rd_queue := rd_queue, out := out } := by
  unfold sendToQueue
  split
  · split
    · exact ⟨_, _, rfl⟩
    · exact ⟨_, _, rfl⟩
  · exact ⟨_, _, rfl⟩

theorem release_frame (s : AODV) (gw : Addr) (l : List Data) :
    ∃ rd_queue out, s.release e gw l = { s with rd_queue := rd_queue, out := out } := by
  unfold release
  induction l generalizing s with
  | nil => exact ⟨_, _, rfl⟩
  | cons p l ih =>
    obtain ⟨_, _, hsent⟩ := @sendToQueue_frame e s { p with rt_gateway := gw }
    obtain ⟨_, _, hrest⟩ := ih (s.sendToQueue e { p with rt_gateway := gw })
    rw [List.foldl_cons, hrest, hsent]
    exact ⟨_, _, rfl⟩

theorem processRepaired_frame (s : AODV) (ip : Addr) :
    ∃ local_repair_table rd_queue out, s.processRepaired e ip =
      { s with local_repair_table := local_repair_table, rd_queue := rd_queue, out := out } := by
  unfold processRepaired
  split
  · exact ⟨_, _, _, rfl⟩
  · rename_i c _
    split
    · rename_i r _
      split
      · obtain ⟨_, _, hrelease⟩ := @release_frame e s r.rt_nexthop c.buffer_list
        simp only [hrelease]
        exact ⟨_, _, _, rfl⟩
      · exact ⟨_, _, _, rfl⟩
    · exact ⟨_, _, _, rfl⟩

/-- Packets that are released change the buffers and queues only. -/
theorem processBuffered_frame (s : AODV) (ip : Addr) :
    ∃ ctrl_table local_repair_table rd_queue out, s.processBuffered e ip =
      { s with
        ctrl_table := ctrl_table
        local_repair_table := local_repair_table
        rd_queue := rd_queue
        out := out } := by
  unfold processBuffered
  split
  · obtain ⟨_, _, _, h⟩ := @processRepaired_frame e s ip
    exact ⟨_, _, _, _, h⟩
  · rename_i c _
    split
    · rename_i r _
      split
      · obtain ⟨_, _, hrelease⟩ := @release_frame e s r.rt_nexthop c.buffer_list
        simp only [hrelease]
        obtain ⟨_, _, _, h⟩ := @processRepaired_frame e _ ip
        exact ⟨_, _, _, _, h⟩
      · exact ⟨_, _, _, _, rfl⟩
    · exact ⟨_, _, _, _, rfl⟩

/-- `processBuffered` for two destinations. -/
theorem processBoth_frame (s : AODV) (ip ip' : Addr) :
    ∃ ctrl_table local_repair_table rd_queue out,
      (s.processBuffered e ip).processBuffered e ip' =
        { s with
          ctrl_table := ctrl_table
          local_repair_table := local_repair_table
          rd_queue := rd_queue
          out := out } := by
  obtain ⟨_, _, _, _, h⟩ := @processBuffered_frame e s ip
  obtain ⟨_, _, _, _, h'⟩ := @processBuffered_frame e (s.processBuffered e ip) ip'
  rw [h', h]
  exact ⟨_, _, _, _, rfl⟩

end AODV

end Aodv
