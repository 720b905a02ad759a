import Nctuns.Adv.Advd
import Nctuns.Adv.Proofs.RtTableProofs

/-!
# Proofs about the ADV daemon

A handler is a chain of small steps. One that only lets go of packets and does not touch a route or the
waiting packets is `Passes`; what a step keeps of the accounts and of the routes is `Keeps`.
-/

namespace Adv

/-! ## Tables -/

/-- A change that `g` does not see. -/
theorem map_modify_of_eq {α β : Type*} {g : α → β} {f : α → α} (h : ∀ a, g (f a) = g a) (l : List α)
    (i : ℕ) : (l.modify i f).map g = l.map g := by
  induction l generalizing i with
  | nil => cases i <;> rfl
  | cons a l ih =>
    cases i with
    | zero => rw [List.modify_zero_cons, List.map_cons, List.map_cons, h]
    | succ i => rw [List.modify_succ_cons, List.map_cons, List.map_cons, ih]

/-- What `ifExist` finds. -/
theorem find_of_findIdx {α : Type*} {p : α → Bool} {l : List α} {i : ℕ} (h : l.findIdx? p = some i) :
    ∃ a, l[i]? = some a ∧ p a = true ∧ l.find? p = some a := by
  obtain ⟨hi, hp, -⟩ := List.findIdx?_eq_some_iff_getElem.1 h
  refine ⟨l[i], List.getElem?_eq_getElem hi, hp, ?_⟩
  rw [List.find?_eq_bind_findIdx?_getElem?, h]
  exact List.getElem?_eq_getElem hi

namespace RtTable

variable {t : RtTable} {dst nexthop : Addr} {metric seqNum : Int} {signHost : Addr} {recv : Bool} {i : ℕ}

/-- Destinations and signers, on which the routes depend. -/
def keys (t : RtTable) : List (Addr × Addr) := t.rows.map fun r => (r.Dst_IP, r.seqSignHost)

/-- A destination has a valid route where its key says so. -/
theorem hasValid_iff (dst : Addr) : t.hasValid dst ↔ (dst, dst) ∈ t.keys := by
  unfold hasValid keys rt_entry.Valid
  rw [List.mem_map]
  constructor
  · rintro ⟨r, hr, hdst, hvalid⟩
    exact ⟨r, hr, Prod.ext hdst (hvalid.symm.trans hdst)⟩
  · rintro ⟨r, hr, heq⟩
    obtain ⟨hdst, hsign⟩ := Prod.ext_iff.1 heq
    exact ⟨r, hr, hdst, hdst.trans hsign.symm⟩

/-- The destinations are distinct where those of the keys are. -/
theorem distinct_iff : t.Distinct ↔ (t.keys.map Prod.fst).Nodup := by
  unfold Distinct keys
  rw [List.map_map]
  rfl

theorem keys_setSeqNow (n : Int) : (t.setSeqNow n).keys = t.keys := by
  refine map_modify_of_eq ?_ _ _
  exact fun _ => rfl

theorem keys_setJustUpdated (i : ℕ) (b : Bool) : (t.setJustUpdated i b).keys = t.keys := by
  refine map_modify_of_eq ?_ _ _
  exact fun _ => rfl

theorem keys_hdledCntIncre (i : ℕ) : (t.hdledCntIncre i).keys = t.keys := by
  refine map_modify_of_eq ?_ _ _
  exact fun _ => rfl

theorem keys_setRecvflag (dst : Addr) (b : Bool) : (t.setRecvflag dst b).keys = t.keys := by
  unfold setRecvflag
  split
  · rfl
  · refine map_modify_of_eq ?_ _ _
    exact fun _ => rfl

theorem keys_sentOut (sel : rt_entry → Bool) : (t.sentOut sel).keys = t.keys := by
  unfold sentOut
  split
  · rfl
  · next own rest hrows =>
    unfold keys
    rw [hrows, List.map_cons, List.map_cons, List.map_map]
    congr 1
    refine List.map_congr_left fun r _ => ?_
    rw [Function.comp_apply]
    split <;> rfl

/-- A row of the table with a new entry is an old one or the new one. -/
theorem mem_addEntry {r : rt_entry}
    (h : r ∈ (t.addEntry dst nexthop metric seqNum signHost recv).rows) :
    r ∈ t.rows ∨ (r.Dst_IP = dst ∧ r.seqSignHost = signHost ∧ t.ifExist dst = none) := by
  unfold addEntry at h
  split at h
  · exact .inl h
  · next hnew =>
    have hnone : t.ifExist dst = none := by simpa using hnew
    split at h
    · rcases List.mem_or_eq_of_mem_set h with hold | rfl
      · exact .inl hold
      · exact .inr ⟨rfl, rfl, hnone⟩
    · rcases List.mem_append.1 h with hold | hlast
      · exact .inl hold
      · obtain rfl := List.mem_singleton.1 hlast
        exact .inr ⟨rfl, rfl, hnone⟩

/-- The only entry that `addEntry` may make valid is the new one. -/
theorem hasValid_addEntry {x : Addr}
    (h : (t.addEntry dst nexthop metric seqNum signHost recv).hasValid x) :
    t.hasValid x ∨ (x = dst ∧ dst = signHost ∧ t.ifExist dst = none) := by
  obtain ⟨r, hr, hdst, hvalid⟩ := h
  rcases mem_addEntry hr with hold | ⟨hd, hs, hnone⟩
  · exact .inl ⟨r, hold, hdst, hvalid⟩
  · exact .inr ⟨hdst.symm.trans hd, hd.symm.trans (hvalid.trans hs), hnone⟩

/-- The update is newer than the entry. -/
def Fresher (t : RtTable) (dst : Addr) (metric seqNum : Int) : Prop :=
  ∀ r, t.rows.find? (fun r => r.Dst_IP = dst) = some r →
    r.seqNum < seqNum ∨ (r.seqNum = seqNum ∧ r.Metric > metric + 1)

/-- What `updateEntry` does: the entry of the destination is signed by the new host. -/
theorem updateEntry_cases (t : RtTable) (dst nexthop : Addr) (metric seqNum : Int) (signHost : Addr)
    (recv : Bool) :
    t.updateEntry dst nexthop metric seqNum signHost recv = (t, .UPDATE_FAIL) ∨
    ∃ i r r', t.ifExist dst = some i ∧ t.rows[i]? = some r ∧ r.Dst_IP = dst ∧ r'.Dst_IP = dst ∧
      r'.seqSignHost = signHost ∧
      ((dst = signHost ∧ t.Fresher dst metric seqNum ∧
          t.updateEntry dst nexthop metric seqNum signHost recv = (⟨t.rows.set i r'⟩, .UPDATE_SUCCESS)) ∨
        (dst ≠ signHost ∧
          t.updateEntry dst nexthop metric seqNum signHost recv = (⟨t.rows.set i r'⟩, .UPDATE_TOINF))) := by
  unfold updateEntry
  cases hi : t.ifExist dst with
  | none => exact .inl rfl
  | some i =>
    obtain ⟨r, hr, hp, hfind⟩ := find_of_findIdx hi
    have hdst : r.Dst_IP = dst := by simpa using hp
    dsimp only
    rw [hr]
    dsimp only
    split
    · next hsign =>
      split
      · next hfresh =>
        have hfresher : t.Fresher dst metric seqNum := by
          intro r₂ hr₂
          obtain rfl : r = r₂ := Option.some.inj (hfind.symm.trans hr₂)
          exact hfresh
        refine .inr ⟨i, r, _, rfl, hr, hdst, ?_, ?_, .inl ⟨hsign, hfresher, rfl⟩⟩
        · exact hdst
        · rfl
      · exact .inl rfl
    · next hsign =>
      split
      · exact .inl rfl
      · split
        · refine .inr ⟨i, r, _, rfl, hr, hdst, ?_, ?_, .inr ⟨hsign, rfl⟩⟩
          · exact hdst
          · rfl
        · exact .inl rfl

/-- A row that keeps its destination. -/
theorem set_distinct {r r' : rt_entry} (h : t.Distinct) (hr : t.rows[i]? = some r)
    (hdst : r'.Dst_IP = r.Dst_IP) : RtTable.Distinct ⟨t.rows.set i r'⟩ := by
  unfold Distinct at h ⊢
  have hmap : (t.rows.set i r').map rt_entry.Dst_IP = t.rows.map rt_entry.Dst_IP := by
    rw [List.map_set, hdst]
    obtain ⟨hlt, rfl⟩ := List.getElem?_eq_some_iff.1 hr
    rw [← List.getElem_map rt_entry.Dst_IP (h := by rwa [List.length_map])]
    exact List.set_getElem_self _
  rw [hmap]
  exact h

/-- An update keeps the destinations distinct. -/
theorem updateEntry_distinct (h : t.Distinct) :
    (t.updateEntry dst nexthop metric seqNum signHost recv).1.Distinct := by
  rcases updateEntry_cases t dst nexthop metric seqNum signHost recv with
    heq | ⟨i, r, r', -, hr, hd, hd', -, ⟨-, -, heq⟩ | ⟨-, heq⟩⟩
  · rw [heq]
    exact h
  · rw [heq]
    exact set_distinct h hr (hd'.trans hd.symm)
  · rw [heq]
    exact set_distinct h hr (hd'.trans hd.symm)

/-- The only entry that `updateEntry` may make valid is the fresher one. -/
theorem hasValid_updateEntry {x : Addr}
    (h : (t.updateEntry dst nexthop metric seqNum signHost recv).1.hasValid x) :
    t.hasValid x ∨ (x = dst ∧ dst = signHost ∧ t.Fresher dst metric seqNum ∧
      (t.updateEntry dst nexthop metric seqNum signHost recv).2 = .UPDATE_SUCCESS) := by
  rcases updateEntry_cases t dst nexthop metric seqNum signHost recv with
    heq | ⟨i, r, r', -, hr, hd, hd', hs, ⟨hsign, hfresh, heq⟩ | ⟨hsign, heq⟩⟩
  · rw [heq] at h
    exact .inl h
  · rw [heq] at h ⊢
    obtain ⟨q, hq, hdst, hvalid⟩ := h
    rcases List.mem_or_eq_of_mem_set hq with hold | rfl
    · exact .inl ⟨q, hold, hdst, hvalid⟩
    · exact .inr ⟨hdst.symm.trans hd', hsign, hfresh, rfl⟩
  · rw [heq] at h
    obtain ⟨q, hq, hdst, hvalid⟩ := h
    rcases List.mem_or_eq_of_mem_set hq with hold | rfl
    · exact .inl ⟨q, hold, hdst, hvalid⟩
    · exact absurd (hd'.symm.trans (hvalid.trans hs)) hsign

theorem eq_of_distinct (h : t.Distinct) {r q : rt_entry} (hr : r ∈ t.rows) (hq : q ∈ t.rows)
    (hdst : q.Dst_IP = r.Dst_IP) : q = r := List.inj_on_of_nodup_map h hq hr hdst

/-- An entry that goes over a broken link becomes invalid. -/
theorem not_hasValid_invalidate {r : rt_entry} (h : t.Distinct) (hi : t.ifExist dst = some i)
    (hr : t.rows[i]? = some r) (hne : dst ≠ signHost) (hvalid : t.ifMtrInf i = false) :
    ¬ (t.updateEntry dst r.Nexthop_IP metric seqNum signHost recv).1.hasValid dst := by
  have heq : ∃ r' : rt_entry, r'.Dst_IP = dst ∧ r'.seqSignHost = signHost ∧
      (t.updateEntry dst r.Nexthop_IP metric seqNum signHost recv).1 = ⟨t.rows.set i r'⟩ := by
    obtain ⟨q, hq, hp, -⟩ := find_of_findIdx hi
    obtain rfl : r = q := Option.some.inj (hr.symm.trans hq)
    have hdst : r.Dst_IP = dst := by simpa using hp
    unfold updateEntry
    rw [hi]
    dsimp only
    rw [hr]
    dsimp only
    rw [if_neg hne, hvalid, if_neg Bool.false_ne_true, if_pos rfl]
    refine ⟨_, ?_, ?_, rfl⟩
    · exact hdst
    · rfl
  obtain ⟨r', hd', hs', heq⟩ := heq
  have hdist : RtTable.Distinct ⟨t.rows.set i r'⟩ := by
    rw [← heq]
    exact updateEntry_distinct h
  have hlt : i < t.rows.length := (List.getElem?_eq_some_iff.1 hr).1
  have hmem : r' ∈ t.rows.set i r' := List.mem_set hlt r'
  rw [heq]
  rintro ⟨q, hq, hdst, hv⟩
  obtain rfl := eq_of_distinct hdist hmem hq (hdst.trans hd'.symm)
  exact hne (hdst.symm.trans (hv.trans hs'))

/-- A row that is removed leaves the destinations distinct. -/
theorem rmEntry_distinct (h : t.Distinct) (i : ℕ) : (t.rmEntry i).Distinct := by
  rcases Nat.lt_or_ge i t.rows.length with hlt | hge
  · unfold Distinct at h ⊢
    rw [rmEntry_rows hlt]
    have hperm := (SwapErase.erase_perm hlt).map rt_entry.Dst_IP
    exact hperm.nodup_iff.2 (h.sublist ((List.eraseIdx_sublist _ _).map _))
  · rw [rmEntry, if_pos hge]
    exact h

/-- What is left was there. -/
theorem mem_rmEntry {r : rt_entry} (h : r ∈ (t.rmEntry i).rows) : r ∈ t.rows := by
  rcases Nat.lt_or_ge i t.rows.length with hlt | hge
  · rw [rmEntry_rows hlt] at h
    exact List.mem_of_mem_eraseIdx ((SwapErase.erase_perm hlt).mem_iff.1 h)
  · rw [rmEntry, if_pos hge] at h
    exact h

/-- A refresh leaves the table, or removes one row. -/
theorem refreshAt_cases (i : ℕ) : t.refreshAt i = t ∨ t.refreshAt i = t.rmEntry i := by
  rw [refreshAt_eq]
  split
  · exact .inl rfl
  · split
    · exact .inl rfl
    · exact .inr rfl

/-- A refresh only removes entries. -/
theorem refresh_kept (h : t.Distinct) : t.refresh.Distinct ∧ ∀ r ∈ t.refresh.rows, r ∈ t.rows := by
  have hfold (l : List ℕ) (t : RtTable) (h : t.Distinct) :
      (l.foldl refreshAt t).Distinct ∧ ∀ r ∈ (l.foldl refreshAt t).rows, r ∈ t.rows := by
    induction l generalizing t with
    | nil => exact ⟨h, fun _ hr => hr⟩
    | cons i l ih =>
      rw [List.foldl_cons]
      rcases refreshAt_cases (t := t) i with heq | heq
      · rw [heq]
        exact ih t h
      · rw [heq]
        obtain ⟨hdist, hmem⟩ := ih _ (rmEntry_distinct h i)
        exact ⟨hdist, fun r hr => mem_rmEntry (hmem r hr)⟩
  exact hfold _ t h

end RtTable

namespace ctrlTable

variable {t : ctrlTable} {dst : Addr} {i : ℕ}

/-- The number of a search is not part of the waiting room. -/
theorem room_updateEntry (b : Int) : (t.updateEntry dst b).room = t.room := by
  unfold updateEntry
  split
  · rfl
  · refine map_modify_of_eq ?_ _ _
    exact fun _ => rfl

theorem room_bidIncre : (t.bidIncre dst).room = t.room := by
  unfold bidIncre
  split
  · rfl
  · refine map_modify_of_eq ?_ _ _
    exact fun _ => rfl

/-- Nothing waits for a new destination. -/
theorem room_addEntry (b : Int) : (t.addEntry dst b).room = t.room ++ [(dst, [])] := by
  unfold addEntry room
  rw [List.map_append]
  rfl

/-- A destination is in the table where the waiting room has it. -/
theorem ifExist_isSome : (t.ifExist dst).isSome ↔ dst ∈ t.room.map Prod.fst := by
  rw [ifExist, List.findIdx?_isSome, List.any_eq_true]
  unfold room
  simp

/-- The row of a destination, in front of the others. -/
theorem entry_of_ifExist (h : t.ifExist dst = some i) :
    ∃ e, t.rows[i]? = some e ∧ e.Dst_IP = dst ∧ t.entry? dst = some e ∧
      t.room.Perm ((dst, e.buffer_list) :: ctrlTable.room ⟨t.rows.eraseIdx i⟩) := by
  obtain ⟨e, he, hp, hfind⟩ := find_of_findIdx h
  have hdst : e.Dst_IP = dst := by simpa using hp
  obtain ⟨hlt, rfl⟩ := List.getElem?_eq_some_iff.1 he
  refine ⟨t.rows[i], he, hdst, hfind, ?_⟩
  have hperm := ((List.getElem_cons_eraseIdx_perm hlt).map fun e => (e.Dst_IP, e.buffer_list)).symm
  rw [List.map_cons, hdst] at hperm
  exact hperm

/-- `attachPKT` puts the packet behind those that wait for the destination. -/
theorem room_attachPKT (thr : ℕ) (p : Packet) (h : (t.ifExist dst).isSome) :
    ∃ l r, t.room.Perm ((dst, l) :: r) ∧ (t.attachPKT thr dst p).1.room.Perm ((dst, l ++ [p]) :: r) := by
  obtain ⟨i, hi⟩ := Option.isSome_iff_exists.1 h
  obtain ⟨e, he, hdst, -, hperm⟩ := entry_of_ifExist hi
  refine ⟨e.buffer_list, _, hperm, ?_⟩
  unfold attachPKT
  rw [hi]
  dsimp only
  rw [he]
  dsimp only
  obtain ⟨hlt, rfl⟩ := List.getElem?_eq_some_iff.1 he
  have hlt' : i < (t.rows.modify i fun e => { e with buffer_list := e.buffer_list ++ [p] }).length := by
    rwa [List.length_modify]
  have hperm' := ((List.getElem_cons_eraseIdx_perm hlt').map fun e => (e.Dst_IP, e.buffer_list)).symm
  rw [List.map_cons, List.getElem_modify_eq, List.eraseIdx_modify_of_eq, hdst] at hperm'
  exact hperm'

/-- A row that is removed takes its packets with it. -/
theorem room_rmEntry {e : ctrl_entry} (h : t.entry? dst = some e) :
    t.room.Perm ((dst, e.buffer_list) :: (t.rmEntry dst).room) := by
  have hsome : (t.ifExist dst).isSome := by
    unfold ifExist
    rw [List.findIdx?_isSome, List.any_eq_true]
    exact ⟨e, List.mem_of_find?_eq_some h, (List.find?_eq_some_iff_append.1 h).1⟩
  obtain ⟨i, hi⟩ := Option.isSome_iff_exists.1 hsome
  obtain ⟨e', he', -, hentry, hperm⟩ := entry_of_ifExist hi
  obtain rfl : e' = e := Option.some.inj (hentry.symm.trans h)
  have hlt : i < t.rows.length := (List.getElem?_eq_some_iff.1 he').1
  unfold rmEntry
  rw [hi]
  exact hperm.trans (((SwapErase.erase_perm hlt).map _).symm.cons _)

end ctrlTable

namespace ADVd

open WaitingRoom

variable {cfg : Config} {e : Env} {s t u : ADVd} {p : Packet} {dst : Addr} {hand hand' out out' : List ℕ}
  {n n' : ℕ} {C D : Prop}

/-! ## Letting go of packets -/

/-- The packets `out` are let go of, and `n` are counted off. -/
structure Passes (out : List ℕ) (n : ℕ) (s t : ADVd) : Prop where
  keys : t.rt_table.keys = s.rt_table.keys
  ctrl : t.ctrl_table = s.ctrl_table
  cnt : t.buf_pkt_cnt = s.buf_pkt_cnt - n
  gone : t.gone.Perm (s.gone ++ out)
  entered : t.entered = s.entered

theorem Passes.refl (s : ADVd) : Passes [] 0 s s :=
  ⟨rfl, rfl, rfl, by rw [List.append_nil], rfl⟩

/-- What two calls let pass, together. -/
theorem Passes.trans (h : Passes out n s t) (h' : Passes out' n' t u) : Passes (out ++ out') (n + n') s u where
  keys := h'.keys.trans h.keys
  ctrl := h'.ctrl.trans h.ctrl
  cnt := by rw [h'.cnt, h.cnt, Nat.sub_sub]
  gone := by
    refine h'.gone.trans ?_
    rw [← List.append_assoc]
    exact h.gone.append_right out'
  entered := h'.entered.trans h.entered

/-- A further step that leaves everything of interest as it is. -/
theorem Passes.same (h : Passes out n s t) (hkeys : u.rt_table.keys = t.rt_table.keys)
    (hctrl : u.ctrl_table = t.ctrl_table) (hcnt : u.buf_pkt_cnt = t.buf_pkt_cnt) (hgone : u.gone = t.gone)
    (hentered : u.entered = t.entered) : Passes out n s u :=
  ⟨hkeys.trans h.keys, hctrl.trans h.ctrl, hcnt.trans h.cnt, hgone ▸ h.gone, hentered.trans h.entered⟩

/-- A call that lets nothing pass. -/
theorem Passes.quiet (h : Passes out n s t) (h' : Passes [] 0 t u) : Passes out n s u := by
  have := h.trans h'
  rwa [List.append_nil] at this

/-- What has left: sent down, to be sent down, given up, or freed. -/
theorem gone_eq (s : ADVd) : s.gone =
    (s.down.filterMap Msg.packet).map Packet.id ++ (s.rd.filterMap Msg.packet).map Packet.id ++
      s.up.map Packet.id ++ s.freed.map Packet.id := by
  unfold gone
  rw [List.filterMap_append, List.map_append]

/-- The data packet of a message, by its number. -/
def idOf (m : Msg) : List ℕ := m.packet.toList.map Packet.id

theorem ids_singleton (m : Msg) : ([m].filterMap Msg.packet).map Packet.id = idOf m := by
  cases m <;> rfl

/-- The packet of the message is freed. -/
theorem passes_freePacket (s : ADVd) (m : Msg) : Passes (idOf m) 0 s (s.freePacket m) where
  keys := rfl
  ctrl := rfl
  cnt := rfl
  gone := by
    rw [gone_eq, gone_eq]
    unfold freePacket
    rw [List.map_append, ← List.append_assoc]
    exact List.Perm.refl _
  entered := rfl

/-- The packet of the message is sent down, waits or is freed. -/
theorem passes_sendToQueue (e : Env) (s : ADVd) (m : Msg) : Passes (idOf m) 0 s (s.sendToQueue e m) := by
  unfold sendToQueue
  split
  · split
    · refine ⟨rfl, rfl, rfl, ?_, rfl⟩
      rw [gone_eq, gone_eq, List.filterMap_append, List.map_append, ids_singleton, List.perm_iff_count]
      intro a
      simp only [List.count_append]
      omega
    · exact passes_freePacket s m
  · refine ⟨rfl, rfl, rfl, ?_, rfl⟩
    rw [gone_eq, gone_eq, List.filterMap_append, List.map_append, ids_singleton, List.perm_iff_count]
    intro a
    simp only [List.count_append]
    omega

/-- A control message is not one of the packets. -/
theorem passes_sendControl {m : Msg} (e : Env) (s : ADVd) (h : m.packet = none) :
    Passes [] 0 s (s.sendToQueue e m) := by
  have hsent := passes_sendToQueue e s m
  unfold idOf at hsent
  rwa [h] at hsent

/-- A packet that waits is sent down. -/
theorem passes_push (s : ADVd) : Passes [] 0 s s.push := by
  unfold push
  split
  · exact Passes.refl s
  · next m rest hrd =>
    refine (Passes.refl s).same rfl rfl rfl ?_ rfl
    unfold gone
    rw [hrd]
    dsimp only
    rw [List.append_assoc s.down, List.singleton_append]

theorem passes_sentOut (s : ADVd) (sel : rt_entry → Bool) : Passes [] 0 s (s.sentOut sel) := by
  refine (Passes.refl s).same ?_ rfl rfl rfl rfl
  exact (RtTable.keys_sentOut sel).trans (RtTable.keys_setSeqNow _)

/-- An update lets no packet pass. -/
theorem passes_partialUpdate (e : Env) (s : ADVd) : Passes [] 0 s (s.partialUpdate e) := by
  unfold partialUpdate
  refine Passes.quiet ?_ (passes_sendControl e _ rfl)
  exact (passes_sentOut s _).same rfl rfl rfl rfl rfl

theorem passes_compute_thresh (s : ADVd) : Passes [] 0 s (s.compute_thresh cfg e) := by
  unfold compute_thresh
  dsimp only
  split
  · exact (Passes.refl s).same rfl rfl rfl rfl rfl
  · split <;> exact (Passes.refl s).same rfl rfl rfl rfl rfl

/-- An update lets no packet pass. -/
theorem passes_fullUpdate (s : ADVd) : Passes [] 0 s (s.fullUpdate cfg e) := by
  unfold fullUpdate
  refine Passes.quiet ?_ (passes_sendControl e _ rfl)
  refine Passes.quiet ?_ (passes_compute_thresh _)
  exact (passes_sentOut s _).same rfl rfl rfl rfl rfl

/-- The meter lets no packet pass. -/
theorem passes_checkTrgmeter (s : ADVd) : Passes [] 0 s (s.checkTrgmeter cfg e) := by
  unfold checkTrgmeter
  split
  · split
    · exact (Passes.refl s).same rfl rfl rfl rfl rfl
    · exact (passes_fullUpdate s).same rfl rfl rfl rfl rfl
  · split
    · split
      · exact (Passes.refl s).same rfl rfl rfl rfl rfl
      · exact (passes_partialUpdate e s).same rfl rfl rfl rfl rfl
    · exact Passes.refl s

theorem passes_updateTrgmeter (s : ADVd) (flag : Int) : Passes [] 0 s (s.updateTrgmeter cfg e flag) := by
  have hflag : Passes [] 0 s { s with trigger_meter := s.trigger_meter + flag } :=
    (Passes.refl s).same rfl rfl rfl rfl rfl
  exact hflag.quiet (passes_checkTrgmeter _)

/-- An expected response lets no packet pass. -/
theorem passes_expected (s : ADVd) (v : Int) : Passes [] 0 s (s.expected cfg e v).1 := by
  unfold expected
  split
  · exact passes_updateTrgmeter s _
  · split
    · exact passes_updateTrgmeter s _
    · split
      · exact passes_updateTrgmeter s _
      · split <;> exact Passes.refl s

theorem passes_replyRecvalert (s : ADVd) (src : Addr) (metric seqNum : Int) (signHost : Addr) :
    Passes [] 0 s (s.replyRecvalert cfg e src metric seqNum signHost) := passes_sendControl e s rfl

theorem passes_setRecvflag (s : ADVd) (dst : Addr) (b : Bool) :
    Passes [] 0 s { s with rt_table := s.rt_table.setRecvflag dst b } :=
  (Passes.refl s).same (RtTable.keys_setRecvflag dst b) rfl rfl rfl rfl

/-- What `routing` does and finds out. -/
theorem routing_spec (s : ADVd) (dst : Addr) (p : Packet) :
    Passes [] 0 s (s.routing dst p).1 ∧ (s.routing dst p).2.1.id = p.id ∧
    match (s.routing dst p).2.2 with
    | .NOROUTE => s.rt_table.ifExist dst = none
    | .INFINITEENTRY => s.rt_table.Distinct → ¬ s.rt_table.hasValid dst
    | .REACHABLE => True := by
  unfold routing
  cases hi : s.rt_table.ifExist dst with
  | none => exact ⟨Passes.refl s, rfl, rfl⟩
  | some i =>
    obtain ⟨r, hr, hp, -⟩ := find_of_findIdx hi
    dsimp only
    rw [hr]
    dsimp only
    split
    · next hinvalid =>
      refine ⟨Passes.refl s, rfl, ?_⟩
      rintro hdist ⟨q, hq, hdst, hvalid⟩
      have hdst' : r.Dst_IP = dst := by simpa using hp
      obtain rfl := RtTable.eq_of_distinct hdist (List.mem_of_getElem? hr) hq (hdst.trans hdst'.symm)
      exact hinvalid hvalid
    · exact ⟨(Passes.refl s).same (RtTable.keys_hdledCntIncre i) rfl rfl rfl rfl, rfl, trivial⟩

/-- A buffered packet is let go of and counted off. -/
theorem passes_sendBuffered (s : ADVd) (dst : Addr) (p : Packet) :
    Passes [p.id] 1 s (s.sendBuffered e dst p) := by
  obtain ⟨hroute, hid, -⟩ := routing_spec s dst p
  have hsent := hroute.trans (passes_sendToQueue e (s.routing dst p).1 (.data (s.routing dst p).2.1))
  have hout : idOf (.data (s.routing dst p).2.1) = [p.id] := congrArg (fun i => [i]) hid
  rw [hout] at hsent
  exact ⟨hsent.keys, hsent.ctrl, by rw [sendBuffered, hsent.cnt]; rfl, hsent.gone, hsent.entered⟩

/-- All packets that wait for a destination leave. -/
theorem passes_processBuffered {entry : ctrl_entry} (h : s.ctrl_table.entry? dst = some entry) :
    Passes (entry.buffer_list.map Packet.id) entry.buffer_list.length s (s.processBuffered e dst) := by
  have hfold (l : List Packet) (s : ADVd) :
      Passes (l.map Packet.id) l.length s (l.foldl (fun s p => s.sendBuffered e entry.Dst_IP p) s) := by
    induction l generalizing s with
    | nil => exact Passes.refl s
    | cons p l ih =>
      rw [List.foldl_cons, List.map_cons, List.length_cons, Nat.add_comm]
      exact (passes_sendBuffered s _ p).trans (ih _)
  unfold processBuffered
  rw [h]
  exact hfold _ s

/-! ## Accounts and routes -/

/-- The accounts while the packets `hand` are in the hands of a handler. -/
structure Accounts (hand : List ℕ) (s : ADVd) : Prop where
  rooms : (s.ctrl_table.room.map Prod.fst).Nodup
  counted : s.buf_pkt_cnt = s.ctrl_table.held.length
  fates : (s.gone ++ s.ctrl_table.held.map Packet.id ++ hand).Perm (s.entered.map Packet.id)
  once : (s.entered.map Packet.id).Nodup

/-- No packet waits beside a route. -/
structure Released (s : ADVd) : Prop where
  distinct : s.rt_table.Distinct
  released : ∀ dst, s.rt_table.hasValid dst → s.ctrl_table.waiting dst = []

/-- The step from `s` to `t` keeps the accounts and, if `C`, no packet waits beside a route. -/
structure Keeps (hand hand' : List ℕ) (C : Prop) (s t : ADVd) : Prop where
  accounts : Accounts hand s → Accounts hand' t
  released : C → Accounts hand s → Released s → Released t

/-- Two calls, with the conditions of both. -/
theorem Keeps.trans {hand'' : List ℕ} (h : Keeps hand hand' C s t) (h' : Keeps hand' hand'' D t u) :
    Keeps hand hand'' (C ∧ D) s u where
  accounts ha := h'.accounts (h.accounts ha)
  released hc ha hr := h'.released hc.2 (h.accounts ha) (h.released hc.1 ha hr)

theorem Keeps.imp (h : Keeps hand hand' C s t) (hDC : D → Released s → C) : Keeps hand hand' D s t :=
  ⟨h.accounts, fun hd ha hr => h.released (hDC hd hr) ha hr⟩

/-- Calls that let packets pass leave the routes. -/
theorem Passes.hasValid (h : Passes out n s t) (dst : Addr) :
    t.rt_table.hasValid dst ↔ s.rt_table.hasValid dst := by
  rw [RtTable.hasValid_iff, RtTable.hasValid_iff, h.keys]

theorem Passes.distinct (h : Passes out n s t) : t.rt_table.Distinct ↔ s.rt_table.Distinct := by
  rw [RtTable.distinct_iff, RtTable.distinct_iff, h.keys]

/-- Where nothing waits for a valid route, nothing does afterwards. -/
theorem Passes.released (h : Passes out n s t) (hr : Released s) : Released t where
  distinct := h.distinct.2 hr.distinct
  released dst hv := by
    rw [h.ctrl]
    exact hr.released dst ((h.hasValid dst).1 hv)

/-- What is let go of was in the hands of the handler. -/
theorem Passes.keeps (h : Passes out 0 s t) (hand : List ℕ) : Keeps (out ++ hand) hand True s t where
  accounts ha := {
    rooms := by rw [h.ctrl]; exact ha.rooms
    counted := by rw [h.ctrl, h.cnt]; exact ha.counted
    fates := by
      rw [h.ctrl, h.entered]
      refine List.Perm.trans ?_ ha.fates
      have hgone := List.perm_iff_count.1 h.gone
      rw [List.perm_iff_count]
      intro a
      have := hgone a
      simp only [List.count_append] at this ⊢
      omega
    once := by rw [h.entered]; exact ha.once }
  released _ _ hr := h.released hr

/-- A step on the routing table. -/
theorem keeps_rt {rt : RtTable} (hdist : s.rt_table.Distinct → rt.Distinct)
    (h : C → ∀ x, rt.hasValid x → s.rt_table.hasValid x ∨ s.ctrl_table.waiting x = []) :
    Keeps hand hand C s { s with rt_table := rt } where
  accounts ha := ⟨ha.rooms, ha.counted, ha.fates, ha.once⟩
  released hc _ hr := by
    refine ⟨hdist hr.distinct, ?_⟩
    intro x hx
    rcases h hc x hx with hold | hempty
    · exact hr.released x hold
    · exact hempty

/-- A new route: nothing may wait for its destination. -/
theorem keeps_addEntry (dst nexthop : Addr) (metric seqNum : Int) (signHost : Addr) (recv : Bool) :
    Keeps hand hand (s.AddClear dst signHost) s
      { s with rt_table := s.rt_table.addEntry dst nexthop metric seqNum signHost recv } := by
  refine keeps_rt (fun hd => RtTable.addEntry_distinct hd _ _ _ _ _ _) ?_
  intro hclear x hx
  rcases RtTable.hasValid_addEntry hx with hold | ⟨rfl, hsign, hnone⟩
  · exact .inl hold
  · exact .inr (hclear hsign hnone)

/-- A route that is learnt: nothing may wait for its destination. -/
theorem keeps_learn (dst nexthop : Addr) (metric seqNum : Int) (signHost : Addr) (recv : Bool) :
    Keeps hand hand (s.LearnClear dst metric seqNum signHost) s
      (s.learn dst nexthop metric seqNum signHost recv) := by
  unfold learn
  split
  · refine keeps_rt RtTable.updateEntry_distinct ?_
    intro hclear x hx
    rcases RtTable.hasValid_updateEntry hx with hold | ⟨rfl, hsign, hfresh, -⟩
    · exact .inl hold
    · exact .inr (hclear hsign hfresh)
  · refine (keeps_addEntry dst nexthop metric seqNum signHost recv).imp ?_
    intro hclear _ hsign hnone
    refine hclear hsign ?_
    intro r hr
    have hfind : s.rt_table.rows.findIdx? (fun r => decide (r.Dst_IP = dst)) = none := hnone
    rw [List.find?_eq_bind_findIdx?_getElem?, hfind] at hr
    cases hr

/-! ## Waiting packets -/

/-- A change of the table that keeps the waiting room. -/
theorem keeps_ctrl {ctrl : ctrlTable} (h : ctrl.room = s.ctrl_table.room) :
    Keeps hand hand True s { s with ctrl_table := ctrl } where
  accounts ha := by
    refine ⟨?_, ?_, ?_, ha.once⟩
    · rw [h]
      exact ha.rooms
    · rw [ctrlTable.held, h]
      exact ha.counted
    · have hheld : ctrl.held = s.ctrl_table.held := congrArg WaitingRoom.held h
      rw [hheld]
      exact ha.fates
  released _ _ hr := by
    refine ⟨hr.distinct, ?_⟩
    intro x hx
    rw [ctrlTable.waiting, h]
    exact hr.released x hx

/-- A new destination, for which nothing waits. -/
theorem keeps_newCtrl (b : Int) (h : (s.ctrl_table.ifExist dst).isSome = false) :
    Keeps hand hand True s { s with ctrl_table := s.ctrl_table.addEntry dst b } where
  accounts ha := by
    have hnot : dst ∉ s.ctrl_table.room.map Prod.fst := by
      intro hmem
      rw [ctrlTable.ifExist_isSome.2 hmem] at h
      cases h
    have hheld : (s.ctrl_table.addEntry dst b).held = s.ctrl_table.held := by
      unfold ctrlTable.held
      rw [ctrlTable.room_addEntry, held_append_nil]
    refine ⟨?_, ?_, ?_, ha.once⟩
    · rw [ctrlTable.room_addEntry, List.map_append]
      exact List.nodup_append_comm.1 (List.nodup_cons.2 ⟨hnot, ha.rooms⟩)
    · rw [hheld]
      exact ha.counted
    · rw [hheld]
      exact ha.fates
  released _ _ hr := by
    refine ⟨hr.distinct, ?_⟩
    intro x hx
    rw [ctrlTable.waiting, ctrlTable.room_addEntry, waiting_append_nil]
    exact hr.released x hx

/-- The destination is in the table. -/
theorem keeps_withCtrl (s : ADVd) (dst : Addr) : Keeps hand hand True s (s.withCtrl dst) := by
  unfold withCtrl
  cases h : (s.ctrl_table.ifExist dst).isSome with
  | true => exact keeps_ctrl rfl
  | false => exact keeps_newCtrl 0 h

theorem withCtrl_isSome (s : ADVd) (dst : Addr) : ((s.withCtrl dst).ctrl_table.ifExist dst).isSome := by
  unfold withCtrl
  split
  · next h => exact h
  · rw [ctrlTable.ifExist_isSome, ctrlTable.room_addEntry, List.map_append]
    exact List.mem_append_right _ (List.mem_singleton.2 rfl)

/-- The routes and the count are left alone. -/
theorem withCtrl_frame (s : ADVd) (dst : Addr) :
    (s.withCtrl dst).rt_table = s.rt_table ∧ (s.withCtrl dst).buf_pkt_cnt = s.buf_pkt_cnt := by
  unfold withCtrl
  split <;> exact ⟨rfl, rfl⟩

/-- The packet waits or is freed. -/
theorem keeps_buffer (h : (s.ctrl_table.ifExist dst).isSome) :
    Keeps [p.id] [] (s.buf_pkt_cnt < cfg.MAXBUFFEREDPKT → ¬ s.rt_table.hasValid dst) s
      (s.buffer cfg e dst p) := by
  unfold buffer
  split
  · next hroom =>
    obtain ⟨l, r, hl, hl'⟩ := ctrlTable.room_attachPKT cfg.ctrlThreshold p h
    have hjoin : Keeps [p.id] [] (s.buf_pkt_cnt < cfg.MAXBUFFEREDPKT → ¬ s.rt_table.hasValid dst) s
        { s with
          buf_pkt_cnt := s.buf_pkt_cnt + 1
          ctrl_table := (s.ctrl_table.attachPKT cfg.ctrlThreshold dst p).1 } := by
      constructor
      · intro ha
        have hheld := held_join hl hl'
        refine ⟨?_, ?_, ?_, ha.once⟩
        · exact ((hl'.map Prod.fst).trans (hl.map Prod.fst).symm).nodup_iff.2 ha.rooms
        · exact (congrArg (· + 1) ha.counted).trans hheld.length_eq.symm
        · refine List.Perm.trans ?_ ha.fates
          have hids := List.perm_iff_count.1 (hheld.map Packet.id)
          rw [List.perm_iff_count]
          intro a
          have := hids a
          rw [List.map_cons, ← List.singleton_append, List.count_append] at this
          simp only [List.count_append, List.count_nil]
          unfold ctrlTable.held
          rw [this]
          have hgone : ADVd.gone { s with
            buf_pkt_cnt := s.buf_pkt_cnt + 1
            ctrl_table := (s.ctrl_table.attachPKT cfg.ctrlThreshold dst p).1 } = s.gone := rfl
          rw [hgone]
          omega
      · intro hc _ hr
        refine ⟨hr.distinct, ?_⟩
        intro x hx
        by_cases hxd : x = dst
        · exact absurd (hxd ▸ hx) (hc hroom)
        · have hperm := waiting_join hl hl' hxd
          have hempty : WaitingRoom.waiting x s.ctrl_table.room = [] := hr.released x hx
          rw [hempty] at hperm
          exact hperm.eq_nil
    dsimp only
    split
    · exact (hjoin.trans ((passes_updateTrgmeter _ _).keeps [])).imp fun hc _ => ⟨hc, trivial⟩
    · exact hjoin
  · have hfree := (passes_freePacket s (.data p)).trans
      (@passes_updateTrgmeter cfg e _ cfg.TRGMETER_MED)
    exact (hfree.keeps []).imp fun _ _ => trivial

/-- The packets that wait for a destination are let go of when its entry may have become valid. -/
theorem keeps_release {rt : RtTable} {entry : ctrl_entry} (hdist : s.rt_table.Distinct → rt.Distinct)
    (hval : ∀ x, rt.hasValid x → s.rt_table.hasValid x ∨ x = dst)
    (hentry : s.ctrl_table.entry? dst = some entry)
    (h : Passes (entry.buffer_list.map Packet.id) entry.buffer_list.length { s with rt_table := rt } t) :
    Keeps hand hand True s { t with ctrl_table := t.ctrl_table.rmEntry dst } := by
  have hroom := ctrlTable.room_rmEntry hentry
  have hctrl : t.ctrl_table = s.ctrl_table := h.ctrl
  have hleave := held_leave hroom (List.Perm.refl _)
  constructor
  · intro ha
    have hnodup := ((hroom.map Prod.fst).nodup_iff.1 ha.rooms)
    refine ⟨?_, ?_, ?_, ?_⟩
    · rw [hctrl]
      exact (List.nodup_cons.1 hnodup).2
    · have hcnt : t.buf_pkt_cnt = s.buf_pkt_cnt - entry.buffer_list.length := h.cnt
      have hlen := hleave.length_eq
      rw [List.length_append] at hlen
      have hcounted : s.buf_pkt_cnt = (WaitingRoom.held s.ctrl_table.room).length := ha.counted
      show t.buf_pkt_cnt = (t.ctrl_table.rmEntry dst).held.length
      rw [hctrl, ctrlTable.held]
      omega
    · have hentered : t.entered = s.entered := h.entered
      show (t.gone ++ (t.ctrl_table.rmEntry dst).held.map Packet.id ++ hand).Perm (t.entered.map Packet.id)
      rw [hentered, hctrl]
      refine List.Perm.trans ?_ ha.fates
      have hids := List.perm_iff_count.1 (hleave.map Packet.id)
      have hgone := List.perm_iff_count.1 h.gone
      rw [List.perm_iff_count]
      intro a
      have h₁ := hids a
      have h₂ : List.count a t.gone = List.count a (s.gone ++ entry.buffer_list.map Packet.id) := hgone a
      rw [List.map_append] at h₁
      unfold ctrlTable.held
      simp only [List.count_append] at h₁ h₂ ⊢
      omega
    · have hentered : t.entered = s.entered := h.entered
      show (t.entered.map Packet.id).Nodup
      rw [hentered]
      exact ha.once
  · intro _ ha hr
    refine ⟨h.distinct.2 (hdist hr.distinct), ?_⟩
    intro x hx
    show (t.ctrl_table.rmEntry dst).waiting x = []
    rw [hctrl]
    by_cases hxd : x = dst
    · subst hxd
      exact waiting_leave_self hroom (List.Perm.refl _) ha.rooms
    · have hold : s.rt_table.hasValid x := (hval x ((h.hasValid x).1 hx)).resolve_right hxd
      have hperm := waiting_leave_ne hroom (List.Perm.refl _) hxd
      have hempty : WaitingRoom.waiting x s.ctrl_table.room = [] := hr.released x hold
      rw [hempty] at hperm
      exact hperm.eq_nil

/-- Without an entry in the control table nothing waits. -/
theorem waiting_of_ifExist (h : (s.ctrl_table.ifExist dst).isSome = false) :
    s.ctrl_table.waiting dst = [] := by
  refine waiting_of_notMem ?_
  intro hmem
  rw [ctrlTable.ifExist_isSome.2 hmem] at h
  cases h

/-- A destination of the table has an entry. -/
theorem entry_of_isSome (h : (s.ctrl_table.ifExist dst).isSome) :
    ∃ entry, s.ctrl_table.entry? dst = some entry := by
  obtain ⟨i, hi⟩ := Option.isSome_iff_exists.1 h
  obtain ⟨entry, -, -, hentry, -⟩ := ctrlTable.entry_of_ifExist hi
  exact ⟨entry, hentry⟩

/-! ## Handlers -/

/-- A destination without a route has no key. -/
theorem ifExist_eq_none (t : RtTable) (dst : Addr) : t.ifExist dst = none ↔ dst ∉ t.keys.map Prod.fst := by
  rw [← Option.not_isSome_iff_eq_none, RtTable.ifExist_isSome]
  unfold RtTable.keys
  rw [List.map_map]
  rfl

/-- A destination without a route has no valid one. -/
theorem not_hasValid_of_none {t : RtTable} (h : t.ifExist dst = none) : ¬ t.hasValid dst := by
  rw [RtTable.hasValid_iff]
  intro hmem
  exact (ifExist_eq_none t dst).1 h (List.mem_map.2 ⟨_, hmem, rfl⟩)

theorem Passes.ifExist (h : Passes out n s t) (dst : Addr) :
    t.rt_table.ifExist dst = none ↔ s.rt_table.ifExist dst = none := by
  rw [ifExist_eq_none, ifExist_eq_none, h.keys]

/-- A packet from above is in hand. -/
theorem keeps_enter (h : p.id ∉ s.entered.map Packet.id) :
    Keeps [] [p.id] True s { s with entered := s.entered ++ [p] } where
  accounts ha := by
    refine ⟨ha.rooms, ha.counted, ?_, ?_⟩
    · have hfates := ha.fates
      rw [List.append_nil] at hfates
      show (s.gone ++ s.ctrl_table.held.map Packet.id ++ [p.id]).Perm ((s.entered ++ [p]).map Packet.id)
      rw [List.map_append]
      exact hfates.append_right [p.id]
    · show ((s.entered ++ [p]).map Packet.id).Nodup
      rw [List.map_append]
      exact List.nodup_append_comm.1 (List.nodup_cons.2 ⟨h, ha.once⟩)
  released _ _ hr := ⟨hr.distinct, hr.released⟩

/-- A search leaves the packets. -/
theorem keeps_floodingInit (s : ADVd) (dst src : Addr) (metric seqNum : Int) (signHost : Addr) :
    Keeps hand hand True s (s.floodingInit cfg e dst src metric seqNum signHost) := by
  have hbid : Keeps hand hand True (s.withCtrl dst)
      (if src = cfg.myip then
        { s.withCtrl dst with ctrl_table := (s.withCtrl dst).ctrl_table.bidIncre dst } else s.withCtrl dst) := by
    split
    · exact keeps_ctrl ctrlTable.room_bidIncre
    · exact keeps_ctrl rfl
  have hflood (t : ADVd) (c : init_conn) : Keeps hand hand True t (t.sendToQueue e (.INIT_CONNECTION c)) :=
    (passes_sendControl e t rfl).keeps hand
  refine (((keeps_withCtrl s dst).trans hbid).trans (hflood _ _)).imp ?_
  exact fun _ _ => ⟨⟨trivial, trivial⟩, trivial⟩

/-- A packet without a valid route waits or is freed. -/
theorem keeps_wait (s : ADVd) (dst : Addr) (p : Packet) :
    Keeps [p.id] [] (s.buf_pkt_cnt < cfg.MAXBUFFEREDPKT → ¬ s.rt_table.hasValid dst) s
      ((s.withCtrl dst).buffer cfg e dst p) := by
  refine ((keeps_withCtrl s dst).trans (keeps_buffer (withCtrl_isSome s dst))).imp ?_
  intro hc _
  rw [(withCtrl_frame s dst).1, (withCtrl_frame s dst).2]
  exact ⟨trivial, hc⟩

/-- A packet without a route waits, or is freed where too many wait. -/
theorem keeps_noRoute (hnone : s.rt_table.ifExist dst = none) (hp : p.ip_dst = dst) :
    Keeps [p.id] [] (dst = 0 → s.ctrl_table.waiting 0 = [] ∧ cfg.MAXBUFFEREDPKT ≤ s.buf_pkt_cnt) s
      ((((s.addInfinite dst).withCtrl dst).buffer cfg e dst p)) := by
  subst hp
  have hadd : Keeps [p.id] [p.id] (s.AddClear p.ip_dst 0) s (s.addInfinite p.ip_dst) :=
    keeps_addEntry _ _ _ _ _ _
  refine (hadd.trans (keeps_wait (s.addInfinite p.ip_dst) p.ip_dst p)).imp ?_
  intro hc _
  constructor
  · intro hzero _
    rw [hzero]
    exact (hc hzero).1
  · intro hlt hv
    rcases RtTable.hasValid_addEntry hv with hold | ⟨-, hzero, -⟩
    · exact not_hasValid_of_none hnone hold
    · exact absurd (hc hzero).2 (Nat.not_le.2 hlt)

/-- **Send.**. -/
theorem keeps_send (h : p.id ∉ s.entered.map Packet.id) :
    Keeps [] [] (s.Clear cfg (e, .send p)) s (s.send cfg e p) := by
  have henter := (keeps_enter h).trans
    ((passes_setRecvflag { s with entered := s.entered ++ [p] } cfg.myip true).keeps [p.id])
  have hflag := passes_setRecvflag { s with entered := s.entered ++ [p] } cfg.myip true
  unfold send
  dsimp only
  generalize hs₁ : { s with
    rt_table := s.rt_table.setRecvflag cfg.myip true
    entered := s.entered ++ [p] } = s₁ at henter hflag ⊢
  split
  · refine (henter.trans ((passes_sendToQueue e s₁ (.data p)).keeps [])).imp ?_
    exact fun _ _ => ⟨⟨trivial, trivial⟩, trivial⟩
  · next hb =>
    obtain ⟨hroute, hid, hres⟩ := routing_spec s₁ p.ip_dst p
    have hdst : (s₁.routing p.ip_dst p).2.1.ip_dst = p.ip_dst := by
      unfold routing
      split
      · rfl
      · split
        · rfl
        · split <;> rfl
    have hkeeps := henter.trans (hroute.keeps [p.id])
    cases hr : (s₁.routing p.ip_dst p).2.2 with
    | NOROUTE =>
      rw [hr] at hres
      dsimp only at hres ⊢
      have hnone := (hroute.ifExist p.ip_dst).2 hres
      have hwait := @keeps_noRoute cfg e _ _ _ hnone hdst
      rw [hid] at hwait
      have hc : s.Clear cfg (e, .send p) → Released s →
          (((True ∧ True) ∧ True) ∧ (p.ip_dst = 0 → (s₁.routing p.ip_dst p).1.ctrl_table.waiting 0 = [] ∧
            cfg.MAXBUFFEREDPKT ≤ (s₁.routing p.ip_dst p).1.buf_pkt_cnt)) := by
        intro hclear _
        refine ⟨⟨⟨trivial, trivial⟩, trivial⟩, ?_⟩
        intro hzero
        have hstart : s.rt_table.ifExist 0 = none := by
          rw [hzero] at hres
          exact (hflag.ifExist 0).1 hres
        rw [hroute.ctrl, hroute.cnt, ← hs₁]
        exact hclear hb hzero hstart
      have hbuffered := (hkeeps.trans hwait).imp hc
      split
      · next hsome =>
        unfold withCtrl at hbuffered
        rw [if_pos hsome] at hbuffered
        exact hbuffered
      · split
        · exact hbuffered
        · refine (hbuffered.trans (keeps_floodingInit _ _ _ _ _ _)).imp ?_
          exact fun hclear _ => ⟨hclear, trivial⟩
    | INFINITEENTRY =>
      rw [hr] at hres
      dsimp only at hres ⊢
      have hwait := @keeps_wait cfg e (s₁.routing p.ip_dst p).1 p.ip_dst
        (s₁.routing p.ip_dst p).2.1
      rw [hid] at hwait
      refine (hkeeps.trans hwait).imp ?_
      intro _ hrel
      refine ⟨⟨⟨trivial, trivial⟩, trivial⟩, ?_⟩
      intro _ hv
      exact hres (hflag.distinct.2 hrel.distinct) ((hroute.hasValid p.ip_dst).1 hv)
    | REACHABLE =>
      have hout := passes_sendToQueue e (s₁.routing p.ip_dst p).1 (.data (s₁.routing p.ip_dst p).2.1)
      have hsent : idOf (.data (s₁.routing p.ip_dst p).2.1) = [p.id] := congrArg (fun i => [i]) hid
      rw [hsent] at hout
      refine (hkeeps.trans (hout.keeps [])).imp ?_
      exact fun _ _ => ⟨⟨⟨trivial, trivial⟩, trivial⟩, trivial⟩

/-- A packet in hand is given up. -/
theorem keeps_up (hand : List ℕ) (p : Packet) :
    Keeps (p.id :: hand) hand True s { s with up := s.up ++ [p] } := by
  have hup : Passes [p.id] 0 s { s with up := s.up ++ [p] } := by
    refine ⟨rfl, rfl, rfl, ?_, rfl⟩
    rw [gone_eq, gone_eq, List.map_append, List.perm_iff_count]
    intro a
    simp only [List.count_append, List.map_cons, List.map_nil]
    omega
  exact hup.keeps hand

/-- **Receive.**. -/
theorem keeps_recv (h : p.id ∉ s.entered.map Packet.id) : Keeps [] [] True s (s.recv cfg e p) := by
  have henter := keeps_enter h
  unfold recv
  split
  · exact (henter.trans (keeps_up [] p)).imp fun _ _ => ⟨trivial, trivial⟩
  · split
    · exact (henter.trans (keeps_up [] p)).imp fun _ _ => ⟨trivial, trivial⟩
    · generalize { s with entered := s.entered ++ [p] } = s₁ at henter ⊢
      dsimp only
      obtain ⟨hroute, hid, hres⟩ := routing_spec s₁ p.ip_dst { p with ip_ttl := p.ip_ttl - 1 }
      generalize s₁.routing p.ip_dst { p with ip_ttl := p.ip_ttl - 1 } = r at hroute hid hres ⊢
      have hid' : r.2.1.id = p.id := hid
      have hout : idOf (.data r.2.1) = [p.id] := congrArg (fun i => [i]) hid'
      have hkeeps := henter.trans (hroute.keeps [p.id])
      cases hr : r.2.2 with
      | NOROUTE =>
        have hfree := passes_freePacket r.1 (.data r.2.1)
        rw [hout] at hfree
        exact (hkeeps.trans (hfree.keeps [])).imp fun _ _ => ⟨⟨trivial, trivial⟩, trivial⟩
      | INFINITEENTRY =>
        rw [hr] at hres
        have hwait := @keeps_wait cfg e r.1 p.ip_dst r.2.1
        rw [hid'] at hwait
        refine ⟨fun ha => hwait.accounts (hkeeps.accounts ha), ?_⟩
        intro _ ha hrel
        have hrel₁ := henter.released trivial ha hrel
        have hrel₂ := hkeeps.released ⟨trivial, trivial⟩ ha hrel
        refine hwait.released ?_ (hkeeps.accounts ha) hrel₂
        intro _ hv
        exact hres hrel₁.distinct ((hroute.hasValid p.ip_dst).1 hv)
      | REACHABLE =>
        have hsent := passes_sendToQueue e r.1 (.data r.2.1)
        rw [hout] at hsent
        exact (hkeeps.trans (hsent.keeps [])).imp fun _ _ => ⟨⟨trivial, trivial⟩, trivial⟩

/-- A packet comes back. -/
theorem keeps_back (h : Msg.data p ∈ s.down) :
    Keeps [] [p.id] True s { s with down := s.down.erase (.data p) } where
  accounts ha := by
    refine ⟨ha.rooms, ha.counted, ?_, ha.once⟩
    refine List.Perm.trans ?_ ha.fates
    have hdown := ((List.perm_cons_erase h).filterMap Msg.packet).map Packet.id
    have hcons : ((Msg.data p :: s.down.erase (.data p)).filterMap Msg.packet).map Packet.id =
        [p.id] ++ ((s.down.erase (.data p)).filterMap Msg.packet).map Packet.id := rfl
    rw [hcons] at hdown
    rw [gone_eq, gone_eq, List.perm_iff_count]
    intro a
    have := List.perm_iff_count.1 hdown a
    simp only [List.count_append] at this ⊢
    rw [List.count_nil]
    omega
  released _ _ hr := ⟨hr.distinct, hr.released⟩

/-- A table without the routes over a broken link. -/
theorem withoutLink_spec {t : RtTable} (h : t.Distinct) (dst : Addr) :
    (withoutLink cfg t dst).Distinct ∧
    ((withoutLink cfg t dst).hasValid dst → dst = cfg.myip ∧ t.hasValid dst) ∧
    ∀ x, (withoutLink cfg t dst).hasValid x → t.hasValid x := by
  unfold withoutLink
  cases hi : t.ifExist dst with
  | none =>
    have hnot := not_hasValid_of_none hi
    exact ⟨h, fun hv => absurd hv hnot, fun _ hx => hx⟩
  | some i =>
    obtain ⟨r, hr, hp, -⟩ := find_of_findIdx hi
    have hdst : r.Dst_IP = dst := by simpa using hp
    have hmtr : t.ifMtrInf i = decide (r.Dst_IP ≠ r.seqSignHost) := by
      unfold RtTable.ifMtrInf
      rw [hr]
    dsimp only
    rw [hr]
    dsimp only
    split
    · next hinf =>
      refine ⟨h, ?_, fun _ hx => hx⟩
      rintro ⟨q, hq, hqd, hv⟩
      obtain rfl := RtTable.eq_of_distinct h (List.mem_of_getElem? hr) hq (hqd.trans hdst.symm)
      rw [hmtr, decide_eq_true_eq] at hinf
      exact absurd hv hinf
    · next hinf =>
      have hfalse : t.ifMtrInf i = false := by simpa using hinf
      have hold : t.hasValid dst := by
        refine ⟨r, List.mem_of_getElem? hr, hdst, ?_⟩
        rw [hmtr, decide_eq_false_iff_not, not_not] at hfalse
        exact hfalse
      refine ⟨RtTable.updateEntry_distinct h, ?_, ?_⟩
      · intro hv
        refine ⟨?_, hold⟩
        by_contra hne
        exact RtTable.not_hasValid_invalidate h hi hr hne hfalse hv
      · intro x hx
        rcases RtTable.hasValid_updateEntry hx with hx | ⟨rfl, -, -, -⟩
        · exact hx
        · exact hold

/-- **A link is broken.** The packet comes back. -/
theorem keeps_broken (h : Msg.data p ∈ s.down) :
    Keeps [] [] (s.Clear cfg (e, .broken p)) s (s.adv_hdler cfg e p) := by
  have hback := keeps_back h
  constructor
  · intro ha
    have ha₁ := hback.accounts ha
    have ha₂ : Accounts [p.id] { s with
        down := s.down.erase (.data p)
        rt_table := withoutLink cfg s.rt_table p.ip_dst } := ⟨ha₁.rooms, ha₁.counted, ha₁.fates, ha₁.once⟩
    exact (keeps_wait _ _ p).accounts ha₂
  · intro hclear ha hr
    obtain ⟨hdist, hself, hother⟩ := @withoutLink_spec cfg _ hr.distinct p.ip_dst
    have ha₁ := hback.accounts ha
    have ha₂ : Accounts [p.id] { s with
        down := s.down.erase (.data p)
        rt_table := withoutLink cfg s.rt_table p.ip_dst } := ⟨ha₁.rooms, ha₁.counted, ha₁.fates, ha₁.once⟩
    refine (keeps_wait _ _ p).released ?_ ha₂ ⟨hdist, fun x hx => hr.released x (hother x hx)⟩
    intro hlt hv
    obtain ⟨hmine, hold⟩ := hself hv
    exact absurd (hclear hmine (hmine ▸ hold)) (Nat.not_le.2 hlt)

/-- The waiting packets are sent when the entry of their destination may have become valid. -/
theorem keeps_releaseAll {rt : RtTable} {f : ADVd → ADVd} (hdist : s.rt_table.Distinct → rt.Distinct)
    (hval : ∀ x, rt.hasValid x → s.rt_table.hasValid x ∨ x = dst) (hf : ∀ t, Passes [] 0 t (f t)) :
    Keeps hand hand True s
      (if (s.ctrl_table.ifExist dst).isSome then
        { f (({ s with rt_table := rt } : ADVd).processBuffered e dst) with
          ctrl_table :=
            (f (({ s with rt_table := rt } : ADVd).processBuffered e dst)).ctrl_table.rmEntry dst }
      else { s with rt_table := rt }) := by
  cases h : (s.ctrl_table.ifExist dst).isSome with
  | true =>
    obtain ⟨entry, hentry⟩ := entry_of_isSome h
    rw [if_pos rfl]
    refine keeps_release hdist hval hentry ?_
    have hentry' : ({ s with rt_table := rt } : ADVd).ctrl_table.entry? dst = some entry := hentry
    exact (passes_processBuffered hentry').quiet (hf _)
  | false =>
    rw [if_neg Bool.false_ne_true]
    refine keeps_rt hdist ?_
    intro _ x hx
    rcases hval x hx with hold | rfl
    · exact .inl hold
    · exact .inr (waiting_of_ifExist h)

/-- An entry of an update. -/
theorem keeps_learnUpdate (src : Addr) (v : update_entry) :
    Keeps hand hand (s.AddClear v.Dst_IP v.seqSignHost) s (s.learnUpdate e src v) := by
  unfold learnUpdate
  split
  · have hval := fun x => @RtTable.hasValid_updateEntry s.rt_table v.Dst_IP src v.Metric v.seqNum
      v.seqSignHost v.Is_receiver x
    have hdist : s.rt_table.Distinct → (s.rt_table.updateEntry v.Dst_IP src v.Metric v.seqNum v.seqSignHost
      v.Is_receiver).1.Distinct := RtTable.updateEntry_distinct
    generalize s.rt_table.updateEntry v.Dst_IP src v.Metric v.seqNum v.seqSignHost v.Is_receiver = r
      at hval hdist ⊢
    dsimp only
    split
    · have hopen : ∀ x, r.1.hasValid x → s.rt_table.hasValid x ∨ x = v.Dst_IP := by
        intro x hx
        rcases hval x hx with hold | ⟨hxd, -⟩
        · exact .inl hold
        · exact .inr hxd
      exact (keeps_releaseAll hdist hopen Passes.refl).imp fun _ _ => trivial
    · next hfail =>
      refine keeps_rt hdist ?_
      intro _ x hx
      rcases hval x hx with hold | ⟨-, -, -, hok⟩
      · exact .inl hold
      · exact absurd hok hfail
  · exact keeps_addEntry _ _ _ _ _ _

/-- An entry of an update, with the response. -/
theorem keeps_updateRound (src : Addr) (v : update_entry) :
    Keeps hand hand (s.AddClear v.Dst_IP v.seqSignHost) s (s.updateRound cfg e src v) := by
  have hexpected := @passes_expected cfg e (s.learnUpdate e src v) v.Exp_response
  have hround := ((@keeps_learnUpdate e s hand src v).trans
    (hexpected.keeps hand)).imp (D := s.AddClear v.Dst_IP v.seqSignHost) fun hc _ => ⟨hc, trivial⟩
  unfold updateRound
  dsimp only
  split
  · split
    · exact hround
    · next i _ =>
      have hjust : Passes [] 0 ((s.learnUpdate e src v).expected cfg e v.Exp_response).1
          { ((s.learnUpdate e src v).expected cfg e v.Exp_response).1 with
            rt_table :=
              ((s.learnUpdate e src v).expected cfg e v.Exp_response).1.rt_table.setJustUpdated i true } :=
        (Passes.refl _).same (RtTable.keys_setJustUpdated i true) rfl rfl rfl rfl
      exact (hround.trans (hjust.keeps hand)).imp fun hc _ => ⟨hc, trivial⟩
  · exact hround

/-- The entries of an update, one behind the other. -/
theorem keeps_updateRounds (src : Addr) (us : List update_entry) (s : ADVd) :
    Keeps hand hand (s.UpdateClear cfg e src us) s (us.foldl (fun s v => s.updateRound cfg e src v) s) := by
  induction us generalizing s with
  | nil => exact ⟨fun ha => ha, fun _ _ hr => hr⟩
  | cons v us ih =>
    rw [List.foldl_cons]
    refine ((keeps_updateRound src v).trans (ih _)).imp ?_
    intro hc _
    refine ⟨hc [] v us rfl, ?_⟩
    intro l w r hlr
    exact hc (v :: l) w r (congrArg (v :: ·) hlr)

/-- **Update.**. -/
theorem keeps_processUpdate (us : List update_entry) :
    Keeps [] [] (s.Clear cfg (e, .update us)) s (s.processUpdate cfg e us) := by
  unfold processUpdate
  cases us with
  | nil => exact ⟨fun ha => ha, fun _ _ hr => hr⟩
  | cons u us => exact keeps_updateRounds u.Dst_IP _ s

/-- The replier of an answer: the packets for it are sent. -/
theorem keeps_alertReplier (a : recv_alert) : Keeps hand hand True s (s.alertReplier cfg e a) := by
  have hf (t : ADVd) := @passes_replyRecvalert cfg e t a.replier (a.metric + 1) a.seqNum
    a.seqSignHost
  unfold alertReplier
  split
  · refine keeps_releaseAll RtTable.updateEntry_distinct ?_ hf
    intro x hx
    rcases RtTable.hasValid_updateEntry hx with hold | ⟨hxd, -⟩
    · exact .inl hold
    · exact .inr hxd
  · refine keeps_releaseAll (fun hd => RtTable.addEntry_distinct hd _ _ _ _ _ _) ?_ hf
    intro x hx
    rcases RtTable.hasValid_addEntry hx with hold | ⟨hxd, -⟩
    · exact .inl hold
    · exact .inr hxd

/-- **Answer of a receiver.**. -/
theorem keeps_processAlert (a : recv_alert) :
    Keeps [] [] (s.Clear cfg (e, .alert a)) s (s.processAlert cfg e a) :=
  ((keeps_alertReplier a).trans (keeps_learn _ _ _ _ _ _)).imp fun hc _ => ⟨trivial, hc⟩

/-- The source of a search leaves the packets. -/
theorem keeps_learningInInit (s : ADVd) (c : init_conn) :
    Keeps hand hand True s (s.learningInInit cfg e c) := by
  unfold learningInInit
  dsimp only
  cases h : (s.ctrl_table.ifExist c.wanted).isSome with
  | true =>
    rw [if_pos rfl]
    split
    · exact keeps_ctrl rfl
    · refine ((keeps_ctrl (ctrlTable.room_updateEntry _)).trans (keeps_floodingInit _ _ _ _ _ _)).imp ?_
      exact fun _ _ => ⟨trivial, trivial⟩
  | false =>
    rw [if_neg Bool.false_ne_true]
    refine ((keeps_newCtrl _ h).trans (keeps_floodingInit _ _ _ _ _ _)).imp ?_
    exact fun _ _ => ⟨trivial, trivial⟩

/-- The wanted destination becomes unknown. -/
theorem keeps_unknown (s : ADVd) (c : init_conn) :
    Keeps hand hand (c.wanted = 0 → s.ctrl_table.waiting 0 = []) s
      ((s.addInfinite c.wanted).learningInInit cfg e c) := by
  have hadd : Keeps hand hand (s.AddClear c.wanted 0) s (s.addInfinite c.wanted) :=
    keeps_addEntry _ _ _ _ _ _
  refine (hadd.trans (keeps_learningInInit _ c)).imp ?_
  intro hc _
  refine ⟨?_, trivial⟩
  intro hzero _
  rw [hzero]
  exact hc hzero

/-- A route that is removed and searched for again. -/
theorem keeps_again (s : ADVd) (c : init_conn) (i : ℕ) :
    Keeps hand hand (c.wanted = 0 → s.ctrl_table.waiting 0 = []) s
      (({ s with rt_table := s.rt_table.rmEntry i }.addInfinite c.wanted).learningInInit cfg e c) := by
  have hrm : Keeps hand hand True s { s with rt_table := s.rt_table.rmEntry i } := by
    refine keeps_rt (fun hd => RtTable.rmEntry_distinct hd i) ?_
    rintro - x ⟨r, hr, hx⟩
    exact .inl ⟨r, RtTable.mem_rmEntry hr, hx⟩
  exact (hrm.trans (keeps_unknown _ c)).imp fun hc _ => ⟨trivial, hc⟩

/-- A search for another node. -/
theorem keeps_initForOther (c : init_conn) :
    Keeps hand hand (c.wanted = 0 → s.ctrl_table.waiting 0 = []) s (s.initForOther cfg e c) := by
  unfold initForOther
  dsimp only
  split
  · next i _ =>
    split
    · exact keeps_again s c (i + 1)
    · have hflag := (passes_setRecvflag s c.wanted true).keeps hand
      split
      · exact hflag.imp fun _ _ => trivial
      · split
        · exact (hflag.trans (keeps_again _ c (i + 1))).imp fun hc _ => ⟨trivial, hc⟩
        · refine (hflag.trans ((passes_replyRecvalert _ _ _ _ _).keeps hand)).imp ?_
          exact fun _ _ => ⟨trivial, trivial⟩
  · exact keeps_unknown s c

/-- The node becomes a receiver. -/
theorem keeps_becomeReceiver (s : ADVd) : Keeps hand hand True s (s.becomeReceiver cfg e) := by
  unfold becomeReceiver
  split
  · exact keeps_ctrl rfl
  · split
    · exact keeps_ctrl rfl
    · have hquiet := (passes_replyRecvalert s cfg.myip 0 s.sequence_now cfg.myip).quiet
        (passes_setRecvflag (s.replyRecvalert cfg e cfg.myip 0 s.sequence_now cfg.myip) cfg.myip true)
      exact hquiet.keeps hand

/-- A search for this node, or for another one. -/
theorem keeps_initWanted (c : init_conn) :
    Keeps hand hand ((c.wanted ≠ cfg.myip → c.wanted = 0 → s.ctrl_table.waiting 0 = []) ∧
      (c.wanted = cfg.myip →
        (s.becomeReceiver cfg e).LearnClear c.sIP c.sMetric c.sSeqNum c.sSeqSignHost)) s
      (s.initWanted cfg e c) := by
  unfold initWanted
  split
  · next hmine =>
    refine ((keeps_becomeReceiver s).trans (keeps_learn _ _ _ _ _ _)).imp ?_
    exact fun hc _ => ⟨trivial, hc.2 hmine⟩
  · next hother => exact (keeps_initForOther c).imp fun hc _ => hc.1 hother

/-- **Search.**. -/
theorem keeps_processInit (c : init_conn) :
    Keeps [] [] (s.Clear cfg (e, .init c)) s (s.processInit cfg e c) := by
  have hwanted := (@keeps_initWanted cfg e s [] c).trans
    (keeps_learn (s := s.initWanted cfg e c) c.sIP c.lasthost c.sMetric c.sSeqNum c.sSeqSignHost true)
  refine (hwanted.trans (keeps_addEntry _ _ _ _ _ _)).imp ?_
  rintro ⟨hzero, hmine, hsource, hlast⟩ -
  exact ⟨⟨⟨hzero, hmine⟩, hsource⟩, hlast⟩

/-- What one event keeps. -/
theorem keeps_handle {i : Env × Event} (h : s.Possible i) :
    Keeps [] [] (s.Clear cfg i) s (s.handle cfg i.1 i.2) := by
  obtain ⟨e, i⟩ := i
  cases i with
  | send p => exact keeps_send h
  | recv p => exact (keeps_recv h).imp fun _ _ => trivial
  | update us => exact keeps_processUpdate us
  | init c => exact keeps_processInit c
  | alert a => exact keeps_processAlert a
  | broken p => exact keeps_broken h
  | refresh =>
    constructor
    · exact fun ha => ⟨ha.rooms, ha.counted, ha.fates, ha.once⟩
    · intro _ _ hr
      obtain ⟨hdist, hmem⟩ := RtTable.refresh_kept hr.distinct
      refine ⟨hdist, ?_⟩
      rintro x ⟨r, hin, hx⟩
      exact hr.released x ⟨r, hmem r hin, hx⟩
  | partialUpdate => exact ((passes_partialUpdate e s).keeps []).imp fun _ _ => trivial
  | fullUpdate => exact ((passes_fullUpdate s).keeps []).imp fun _ _ => trivial
  | push => exact ((passes_push s).keeps []).imp fun _ _ => trivial

/-! ## Runs -/

/-- With nothing in hand every packet is accounted for. -/
theorem Accounts.accounted (h : Accounts [] s) : s.Accounted := by
  refine ⟨h.counted, ?_, h.once⟩
  have hfates := h.fates
  rwa [List.append_nil] at hfates

theorem accounts_init (cfg : Config) (now : ℕ) : Accounts [] (init cfg now) :=
  ⟨List.nodup_nil, rfl, List.Perm.refl _, List.nodup_nil⟩

/-- Nothing waits. -/
theorem released_init (cfg : Config) (now : ℕ) : Released (init cfg now) := by
  refine ⟨?_, fun _ _ => rfl⟩
  exact RtTable.addEntry_distinct (t := ⟨[]⟩) List.nodup_nil _ _ _ _ _ _

/-- In every run the packets are accounted for, and none waits beside a route as long as no handler makes
an entry valid without sending what waits for it. -/
theorem nothing_stuck (cfg : Config) (now : ℕ) (is : List (Env × Event))
    (h : Run.Along (step cfg) Possible (init cfg now) is) :
    Run.Always (step cfg) Accounted (init cfg now) is ∧
    (Run.Along (step cfg) (Clear cfg) (init cfg now) is →
      Run.Always (step cfg) NothingStuck (init cfg now) is) := by
  constructor
  · refine Run.Always.mono (fun s hs => hs.accounted) (Run.Always.of_along ?_ (accounts_init cfg now) h)
    intro s i s' ha hp hstep
    cases hstep
    exact (keeps_handle hp).accounts ha
  · intro hclear
    have hall := Run.Always.of_along (I := fun s => Accounts [] s ∧ Released s)
      (C := fun s i => s.Possible i ∧ s.Clear cfg i) ?_ ⟨accounts_init cfg now, released_init cfg now⟩
      (h.and hclear)
    · exact hall.mono fun s hs => ⟨hs.1.accounted, hs.2.released⟩
    · rintro s i s' ⟨ha, hr⟩ ⟨hp, hc⟩ hstep
      cases hstep
      exact ⟨(keeps_handle hp).accounts ha, (keeps_handle hp).released hc ha hr⟩

/-- Node 1, whose updates are far off. -/
def quietConfig : Config where
  myip := 1
  TRGMETER_FULL := 100
  TRGMETER_HIGH := 100
  TRGMETER_MED := 0
  TRGMETER_LOW := 0
  MIN_INTERVAL := 1
  ctrlThreshold := 10
  MAXBUFFEREDPKT := 10
  is_ipv4_broadcast := fun _ => false

/-- An empty queue below. -/
def idle : Env := ⟨0, fun _ => 0⟩

/-- A packet for node 2. -/
def toTwo : Packet := ⟨7, 2, 64, none⟩

/-- Node 3 tells of the route to node 2. -/
def tellsOfTwo : List update_entry := [⟨3, 3, -1, 5, 3, false, EXP_ZERO⟩, ⟨2, 2, 0, 5, 2, true, EXP_ZERO⟩]

/-- A packet for an unknown node, and an update that tells of the node. -/
theorem nothing_stuck_update :
    Run.Always (step quietConfig) NothingStuck (init quietConfig 0)
      [(idle, .send toTwo), (idle, .update tellsOfTwo)] := by
  refine (nothing_stuck quietConfig 0 _ ?_).2 ?_
  · refine ⟨?_, ?_⟩
    · show toTwo.id ∉ (init quietConfig 0).entered.map Packet.id
      decide
    · intro s' hs'
      cases hs'
      exact ⟨trivial, fun _ _ => trivial⟩
  · refine ⟨?_, ?_⟩
    · intro _ hzero
      exact absurd hzero (by decide)
    · intro s' hs'
      cases hs'
      refine ⟨?_, fun _ _ => trivial⟩
      rintro (_ | ⟨w, l⟩) v r hlr
      · obtain ⟨rfl, rfl⟩ := List.cons.inj hlr
        intro _ hnone
        exact absurd hnone (by decide)
      · obtain ⟨-, hnil⟩ := List.cons.inj hlr
        exact absurd hnil (by simp)

/-- Node 2 looks for node 1, and the packet for node 2 stays where it is. -/
theorem waits_beside_route :
    ¬ ∀ (cfg : Config) (now : ℕ) (is : List (Env × Event)),
      Run.Along (step cfg) Possible (init cfg now) is →
      Run.Always (step cfg) NothingStuck (init cfg now) is := by
  intro h
  have hrun := h quietConfig 0 [(idle, .send toTwo), (idle, .init ⟨1, 2, 2, 0, 0, 2, 2⟩)] ?_
  · have hend : (Run.exec (step quietConfig) (init quietConfig 0)
        [(idle, .send toTwo), (idle, .init ⟨1, 2, 2, 0, 0, 2, 2⟩)]).map
        (fun t => (decide ((2, 2) ∈ t.rt_table.keys), t.ctrl_table.waiting 2)) = .ok (true, [toTwo]) := by
      rfl
    obtain ⟨t, hstuck, hseen⟩ := hrun.exec_map hend
    obtain ⟨hroute, hwaiting⟩ := Prod.ext_iff.1 hseen
    have hempty := hstuck.released 2 ((RtTable.hasValid_iff 2).2 (of_decide_eq_true hroute))
    have hone : t.ctrl_table.waiting 2 = [toTwo] := hwaiting
    rw [hone] at hempty
    cases hempty
  · refine ⟨?_, ?_⟩
    · show toTwo.id ∉ (init quietConfig 0).entered.map Packet.id
      decide
    · intro s' hs'
      cases hs'
      exact ⟨trivial, fun _ _ => trivial⟩

end ADVd

end Adv
