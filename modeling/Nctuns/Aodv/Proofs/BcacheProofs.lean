import Nctuns.Aodv.Proofs.RtTableProofs
import Mathlib.Data.List.Induction

/-!
# Proofs about duplicate RREQs

The cache has one record for an originator: the highest id that came, and a hop count that is the
least of its copies if it is also the first id that came.
-/

namespace Aodv

open AODV

variable {cfg : Config} {e : Env} {s : AODV} {l : List BroadcastID} {b : BroadcastID} {o : Addr}
  {m : RREQ_msg} {src_ip : Addr} {ttl : UInt8}

/-- The records of an originator. -/
def recordsOf (o : Addr) (l : List BroadcastID) : List BroadcastID := l.filter fun b => decide (b.addr = o)

/-- The copy is a duplicate for the record. -/
def BroadcastID.suppresses (b : BroadcastID) (m : RREQ_msg) : Bool :=
  decide (b.bid > m.rreq_id) || (decide (b.bid = m.rreq_id) && decide (b.hopcnt ≤ m.rreq_hopcount))

/-- The record after a copy that is none. -/
def BroadcastID.refresh (b : BroadcastID) (m : RREQ_msg) : BroadcastID :=
  if b.bid = m.rreq_id then { b with hopcnt := m.rreq_hopcount } else { b with bid := m.rreq_id }

/-- Records of other originators stay as they are. -/
theorem checkRREQ_other (h : o ≠ m.rreq_src_addr) :
    recordsOf o (checkRREQ m l).1 = recordsOf o l := by
  induction l with
  | nil => rfl
  | cons b l ih =>
    unfold checkRREQ recordsOf
    unfold recordsOf at ih
    by_cases hb : b.addr = m.rreq_src_addr
    · have hbo : ¬ b.addr = o := fun he => h (he.symm.trans hb)
      simp only [hb, if_true]
      split
      · rfl
      · split
        · split
          · rfl
          · simp [hbo, hb ▸ hbo, ih]
        · simp [hbo, hb ▸ hbo, ih]
    · simp only [hb, if_false]
      by_cases hbo : b.addr = o
      · simp [hbo, ih]
      · simp [hbo, ih]

theorem checkRREQ_none (h : recordsOf m.rreq_src_addr l = []) : checkRREQ m l = (l, false) := by
  induction l with
  | nil => rfl
  | cons b l ih =>
    unfold recordsOf at h ih
    have hb : ¬ b.addr = m.rreq_src_addr := by simpa using List.filter_eq_nil_iff.1 h b List.mem_cons_self
    have hl := ih (List.filter_eq_nil_iff.2 fun x hx => List.filter_eq_nil_iff.1 h x (List.mem_cons_of_mem _ hx))
    unfold checkRREQ
    simp [hb, hl]

theorem checkRREQ_one (h : recordsOf m.rreq_src_addr l = [b]) :
    (checkRREQ m l).2 = b.suppresses m ∧ recordsOf m.rreq_src_addr (checkRREQ m l).1 =
      [if b.suppresses m then b else b.refresh m] := by
  induction l with
  | nil => cases h
  | cons x l ih =>
    by_cases hx : x.addr = m.rreq_src_addr
    · have hcons : x = b ∧ recordsOf m.rreq_src_addr l = [] := by
        unfold recordsOf at h
        rw [List.filter_cons_of_pos (by simpa using hx)] at h
        exact List.cons.inj h
      obtain ⟨rfl, hl⟩ := hcons
      have hrest := checkRREQ_none hl
      unfold checkRREQ BroadcastID.suppresses BroadcastID.refresh
      simp only [hx, if_true, hrest]
      unfold recordsOf at hl ⊢
      split
      · simp [*]
      · split
        · split
          · simp [*]
          · simp [*]
        · simp [*]
    · have hl : recordsOf m.rreq_src_addr l = [b] := by
        unfold recordsOf at h ⊢
        rwa [List.filter_cons_of_neg (by simpa using hx)] at h
      obtain ⟨hdup, hrest⟩ := ih hl
      unfold checkRREQ
      simp only [hx, if_false]
      refine ⟨hdup, ?_⟩
      unfold recordsOf at hrest ⊢
      rw [List.filter_cons_of_neg (by simpa using hx), hrest]

/-! ### One copy -/

theorem answerRREQ_frame (s : AODV) :
    ∃ rtable out, s.answerRREQ cfg e src_ip ttl m = { s with rtable := rtable, out := out } := by
  unfold answerRREQ
  simp only
  split
  · split <;> exact ⟨_, _, rfl⟩
  · split
    · split
      · split <;> exact ⟨_, _, rfl⟩
      · split <;> exact ⟨_, _, rfl⟩
    · split <;> exact ⟨_, _, rfl⟩

theorem processRREQ_bcache (s : AODV) :
    (s.processRREQ cfg e src_ip ttl m).bcache = s.bcache ∧
      (s.processRREQ cfg e src_ip ttl m).mip = s.mip := by
  unfold processRREQ
  simp only
  obtain ⟨_, _, _, _, hboth⟩ := @processBoth_frame e _ m.rreq_src_addr src_ip
  rw [hboth]
  obtain ⟨_, _, hanswer⟩ := @answerRREQ_frame cfg e { m with rreq_hopcount := m.rreq_hopcount + 1 }
    src_ip ttl _
  rw [hanswer]
  exact ⟨rfl, rfl⟩

/-- The cache after a copy. -/
theorem recvRREQ_bcache (s : AODV) : (s.recvRREQ cfg e src_ip ttl m).mip = s.mip ∧
    (s.recvRREQ cfg e src_ip ttl m).bcache =
      if m.rreq_src_addr = s.mip then s.bcache else (updateBcache cfg e m s.bcache).1 := by
  unfold recvRREQ
  have hmip : (s.updateSimpleRRoute cfg e src_ip).mip = s.mip := rfl
  have hbcache : (s.updateSimpleRRoute cfg e src_ip).bcache = s.bcache := rfl
  simp only [hmip, hbcache]
  split
  · exact ⟨rfl, rfl⟩
  · split
    · exact ⟨rfl, rfl⟩
    · obtain ⟨hbcache, hmip⟩ := @processRREQ_bcache cfg e m src_ip ttl
        { s.updateSimpleRRoute cfg e src_ip with bcache := (updateBcache cfg e m s.bcache).1 }
      exact ⟨hmip, hbcache⟩

theorem updateBcache_none (h : recordsOf m.rreq_src_addr l = []) :
    (updateBcache cfg e m l).1 =
      ⟨m.rreq_src_addr, m.rreq_id, m.rreq_hopcount, e.now + cfg.path_discovery_time_⟩ :: l := by
  have hget : Keyed.get BroadcastID.addr m.rreq_src_addr l = none :=
    Keyed.get_eq_none.2 fun b hb hne => List.filter_eq_nil_iff.1 h b hb (decide_eq_true hne)
  unfold updateBcache
  simp [checkRREQ_none h, hget]

theorem updateBcache_one (h : recordsOf m.rreq_src_addr l = [b]) :
    (updateBcache cfg e m l).1 = (checkRREQ m l).1 := by
  have hb : b ∈ recordsOf m.rreq_src_addr l := by simp [h]
  obtain ⟨hbl, hb⟩ := List.mem_filter.1 hb
  unfold updateBcache
  cases hget : Keyed.get BroadcastID.addr m.rreq_src_addr l with
  | none => exact absurd (of_decide_eq_true hb) (Keyed.get_eq_none.1 hget b hbl)
  | some x =>
    simp only
    split <;> rfl

theorem updateBcache_other (h : o ≠ m.rreq_src_addr) :
    recordsOf o (updateBcache cfg e m l).1 = recordsOf o l := by
  have hcheck := @checkRREQ_other l o m h
  unfold updateBcache
  simp only
  split
  · exact hcheck
  · split
    · exact hcheck
    · rw [← hcheck]
      unfold recordsOf
      exact List.filter_cons_of_neg (by simpa using Ne.symm h)

/-! ### All copies -/

/-- A record has the highest id of the copies, and the least hop count of its copies if it was the first
    id. -/
structure Records (b : BroadcastID) (o : Addr) (cs : List Copy) : Prop where
  le : ∀ c ∈ cs, c.my_rreq.rreq_src_addr = o → c.my_rreq.rreq_id ≤ b.bid
  reached : ∃ c ∈ cs, c.my_rreq.rreq_src_addr = o ∧ c.my_rreq.rreq_id = b.bid
  hops : (∀ c ∈ firstOf o cs, c.my_rreq.rreq_id = b.bid) →
    (∀ c ∈ cs, c.my_rreq.rreq_src_addr = o → c.my_rreq.rreq_id = b.bid →
      b.hopcnt ≤ c.my_rreq.rreq_hopcount) ∧
      ∃ c ∈ cs, c.my_rreq.rreq_src_addr = o ∧ c.my_rreq.rreq_id = b.bid ∧
        c.my_rreq.rreq_hopcount = b.hopcnt

/-- What the cache says about an originator. -/
def Remembers (l : List BroadcastID) (o : Addr) (cs : List Copy) : Prop :=
  (recordsOf o l = [] ∧ ∀ c ∈ cs, c.my_rreq.rreq_src_addr ≠ o) ∨
    ∃ b, recordsOf o l = [b] ∧ Records b o cs

variable {cs : List Copy} {c : Copy}

theorem exists_first (h : ∃ x ∈ cs, x.my_rreq.rreq_src_addr = o) :
    ∃ y, firstOf o cs = some y ∧ y ∈ cs ∧ y.my_rreq.rreq_src_addr = o := by
  obtain ⟨x, hx, hxo⟩ := h
  cases hfirst : firstOf o cs with
  | none =>
    unfold firstOf at hfirst
    have hnone := List.find?_eq_none.1 hfirst x hx
    simp [hxo] at hnone
  | some y =>
    unfold firstOf at hfirst
    exact ⟨y, rfl, List.mem_of_find?_eq_some hfirst, by simpa using List.find?_some hfirst⟩

/-- A copy that comes later, or of another originator, is not the first one. -/
theorem firstOf_concat (h : (∃ x ∈ cs, x.my_rreq.rreq_src_addr = o) ∨ c.my_rreq.rreq_src_addr ≠ o) :
    firstOf o (cs ++ [c]) = firstOf o cs := by
  rcases h with h | hc
  · obtain ⟨y, hy, -⟩ := exists_first h
    unfold firstOf at hy ⊢
    rw [List.find?_append, hy, Option.some_or]
  · unfold firstOf
    rw [List.find?_append, List.find?_cons_of_neg (by simpa using hc), List.find?_nil, Option.or_none]

/-- A copy of another originator's RREQ. -/
theorem Records.other (h : Records b o cs) (hc : c.my_rreq.rreq_src_addr ≠ o) :
    Records b o (cs ++ [c]) := by
  obtain ⟨hle, ⟨x, hx, hxo, hxid⟩, hhops⟩ := h
  have hmem : ∀ y ∈ cs ++ [c], y.my_rreq.rreq_src_addr = o → y ∈ cs := by
    intro y hy hyo
    rcases List.mem_append.1 hy with hy | hy
    · exact hy
    · exact absurd (List.mem_singleton.1 hy ▸ hyo) hc
  refine ⟨fun y hy hyo => hle y (hmem y hy hyo) hyo, ⟨x, List.mem_append_left _ hx, hxo, hxid⟩,
    fun hfirst => ?_⟩
  rw [firstOf_concat (.inr hc)] at hfirst
  obtain ⟨hmin, y, hy, hyo⟩ := hhops hfirst
  exact ⟨fun z hz hzo => hmin z (hmem z hz hzo) hzo, y, List.mem_append_left _ hy, hyo⟩

theorem Remembers.other (h : Remembers l o cs) (hc : c.my_rreq.rreq_src_addr ≠ o) :
    Remembers l o (cs ++ [c]) := by
  rcases h with ⟨hnone, hcs⟩ | ⟨b, hb, hrec⟩
  · refine .inl ⟨hnone, fun y hy => ?_⟩
    rcases List.mem_append.1 hy with hy | hy
    · exact hcs y hy
    · exact List.mem_singleton.1 hy ▸ hc
  · exact .inr ⟨b, hb, hrec.other hc⟩

theorem suppresses_iff : b.suppresses m = true ↔
    m.rreq_id < b.bid ∨ b.bid = m.rreq_id ∧ b.hopcnt ≤ m.rreq_hopcount := by
  simp [BroadcastID.suppresses]

/-- A duplicate leaves the record. -/
theorem Records.duplicate (h : Records b c.my_rreq.rreq_src_addr cs)
    (hdup : b.suppresses c.my_rreq = true) : Records b c.my_rreq.rreq_src_addr (cs ++ [c]) := by
  obtain ⟨hle, ⟨x, hx, hxo, hxid⟩, hhops⟩ := h
  have hdup := suppresses_iff.1 hdup
  refine ⟨fun y hy hyo => ?_, ⟨x, List.mem_append_left _ hx, hxo, hxid⟩, fun hfirst => ?_⟩
  · rcases List.mem_append.1 hy with hy | hy
    · exact hle y hy hyo
    · obtain rfl := List.mem_singleton.1 hy
      rcases hdup with hlt | ⟨heq, -⟩
      · exact UInt32.le_of_lt hlt
      · exact heq ▸ UInt32.le_refl _
  · rw [firstOf_concat (.inl ⟨x, hx, hxo⟩)] at hfirst
    obtain ⟨hmin, y, hy, hyo⟩ := hhops hfirst
    refine ⟨fun z hz hzo hzid => ?_, y, List.mem_append_left _ hy, hyo⟩
    rcases List.mem_append.1 hz with hz | hz
    · exact hmin z hz hzo hzid
    · obtain rfl := List.mem_singleton.1 hz
      rcases hdup with hlt | ⟨-, hhop⟩
      · exact absurd (hzid ▸ hlt) (UInt32.lt_irrefl _)
      · exact hhop

/-- A copy that is no duplicate refreshes the record. -/
theorem Records.fresh (h : Records b c.my_rreq.rreq_src_addr cs)
    (hdup : ¬ b.suppresses c.my_rreq = true) :
    Records (b.refresh c.my_rreq) c.my_rreq.rreq_src_addr (cs ++ [c]) := by
  obtain ⟨hle, ⟨x, hx, hxo, hxid⟩, hhops⟩ := h
  rw [suppresses_iff] at hdup
  have hc : c ∈ cs ++ [c] := by simp
  have hfirst := firstOf_concat (c := c) (.inl ⟨x, hx, hxo⟩)
  unfold BroadcastID.refresh
  by_cases hid : b.bid = c.my_rreq.rreq_id
  · -- the same id, fewer hops
    have hlt : c.my_rreq.rreq_hopcount < b.hopcnt := by grind [UInt8.not_le]
    rw [if_pos hid]
    refine ⟨fun y hy hyo => ?_, ⟨x, List.mem_append_left _ hx, hxo, hxid⟩, fun hsame => ?_⟩
    · rcases List.mem_append.1 hy with hy | hy
      · exact hle y hy hyo
      · obtain rfl := List.mem_singleton.1 hy
        exact UInt32.le_of_eq hid.symm
    · obtain ⟨hmin, -⟩ := hhops (hfirst ▸ hsame)
      refine ⟨fun z hz hzo hzid => ?_, c, hc, rfl, hid.symm, rfl⟩
      rcases List.mem_append.1 hz with hz | hz
      · exact UInt8.le_of_lt (UInt8.lt_of_lt_of_le hlt (hmin z hz hzo hzid))
      · exact List.mem_singleton.1 hz ▸ UInt8.le_refl _
  · -- a newer id: the first copy is one of another id
    have hlt : b.bid < c.my_rreq.rreq_id := by grind [UInt32.not_lt, UInt32.lt_iff_toNat_lt, UInt32.le_iff_toNat_le, UInt32.toNat_inj]
    rw [if_neg hid]
    refine ⟨fun y hy hyo => ?_, ⟨c, hc, rfl, rfl⟩, fun hsame => ?_⟩
    · rcases List.mem_append.1 hy with hy | hy
      · exact UInt32.le_of_lt (UInt32.lt_of_le_of_lt (hle y hy hyo) hlt)
      · exact List.mem_singleton.1 hy ▸ UInt32.le_refl _
    · obtain ⟨y, hy, hycs, hyo⟩ := exists_first ⟨x, hx, hxo⟩
      have hyid : y.my_rreq.rreq_id = c.my_rreq.rreq_id := hsame y (hfirst ▸ hy)
      have hyle := hle y hycs hyo
      exact absurd (UInt32.lt_of_lt_of_le hlt (hyid ▸ hyle)) (UInt32.lt_irrefl _)

theorem remembers_step (cfg : Config) (s : AODV) (c : Copy) (ho : o ≠ s.mip)
    (h : Remembers s.bcache o cs) :
    Remembers (s.recvRREQ cfg c.env c.src_ip c.ttl c.my_rreq).bcache o (cs ++ [c]) := by
  rw [(recvRREQ_bcache s).2]
  by_cases hown : c.my_rreq.rreq_src_addr = s.mip
  · rw [if_pos hown]
    exact h.other fun hc => ho (hc.symm.trans hown)
  · rw [if_neg hown]
    by_cases ho : o = c.my_rreq.rreq_src_addr
    · subst ho
      rcases h with ⟨hnone, hcs⟩ | ⟨b, hb, hrec⟩
      · rw [updateBcache_none hnone]
        have hc : c ∈ cs ++ [c] := by simp
        have honly : ∀ y ∈ cs ++ [c], y.my_rreq.rreq_src_addr = c.my_rreq.rreq_src_addr → y = c := by
          intro y hy hyo
          rcases List.mem_append.1 hy with hy | hy
          · exact absurd hyo (hcs y hy)
          · exact List.mem_singleton.1 hy
        refine .inr ⟨⟨c.my_rreq.rreq_src_addr, c.my_rreq.rreq_id, c.my_rreq.rreq_hopcount,
          c.env.now + cfg.path_discovery_time_⟩, ?_, fun y hy hyo => ?_, ⟨c, hc, rfl, rfl⟩, fun _ =>
          ⟨fun y hy hyo _ => ?_, c, hc, rfl, rfl, rfl⟩⟩
        · unfold recordsOf at hnone ⊢
          rw [List.filter_cons_of_pos (by simp), hnone]
        · exact honly y hy hyo ▸ UInt32.le_refl _
        · exact honly y hy hyo ▸ UInt8.le_refl _
      · rw [updateBcache_one hb]
        refine .inr ⟨_, (checkRREQ_one hb).2, ?_⟩
        by_cases hdup : b.suppresses c.my_rreq = true
        · rw [if_pos hdup]
          exact hrec.duplicate hdup
        · rw [if_neg hdup]
          exact hrec.fresh hdup
    · have hother : Remembers (updateBcache cfg c.env c.my_rreq s.bcache).1 o cs := by
        unfold Remembers
        rw [updateBcache_other ho]
        exact h
      exact hother.other (Ne.symm ho)

/-- The cache after any copies. -/
theorem remembers (cfg : Config) (s : AODV) (hs : ∀ b ∈ s.bcache, b.addr = s.mip) (cs : List Copy) :
    (s.recvAll cfg cs).mip = s.mip ∧ ∀ o ≠ s.mip, Remembers (s.recvAll cfg cs).bcache o cs := by
  induction cs using List.reverseRecOn with
  | nil =>
    refine ⟨rfl, fun o ho => .inl ⟨List.filter_eq_nil_iff.2 fun b hb => ?_, by simp⟩⟩
    have hmip := hs b hb
    simpa [hmip] using Ne.symm ho
  | append_singleton cs c ih =>
    obtain ⟨hmip, hmem⟩ := ih
    have hfold : s.recvAll cfg (cs ++ [c]) =
        (s.recvAll cfg cs).recvRREQ cfg c.env c.src_ip c.ttl c.my_rreq := List.foldl_concat ..
    rw [hfold]
    exact ⟨(recvRREQ_bcache _).1.trans hmip, fun o ho => remembers_step cfg _ c (hmip ▸ ho) (hmem o ho)⟩

/-- **Duplicates.** -/
theorem recvAll_suppresses (cfg : Config) (s : AODV) (hs : ∀ b ∈ s.bcache, b.addr = s.mip)
    (cs : List Copy) (m : RREQ_msg) : s.Suppresses cfg cs m := by
  obtain ⟨hmip, hmem⟩ := remembers cfg s hs cs
  have hown : m.rreq_src_addr = s.mip → ¬ (s.recvAll cfg cs).Processes m :=
    fun hown hp => hp.1 (hown.trans hmip.symm)
  -- an originator is other than this node, and the RREQ is a duplicate if its record says so
  have hprocesses : ∀ b, m.rreq_src_addr ≠ s.mip →
      recordsOf m.rreq_src_addr (s.recvAll cfg cs).bcache = [b] →
      ((s.recvAll cfg cs).Processes m ↔ ¬ b.suppresses m = true) := fun b hne hb => by
    unfold Processes
    rw [hmip, (checkRREQ_one hb).1]
    simp [hne]
  have hnew : m.rreq_src_addr ≠ s.mip → recordsOf m.rreq_src_addr (s.recvAll cfg cs).bcache = [] →
      (s.recvAll cfg cs).Processes m := fun hne hnone =>
    ⟨hmip ▸ hne, by rw [checkRREQ_none hnone]⟩
  refine ⟨hown, ?_, fun hne hall => ?_, fun hne hfirst hall => ?_⟩
  · rintro ⟨c, hc, hco, hlt⟩ hp
    have hne : m.rreq_src_addr ≠ s.mip := fun he => hown he hp
    rcases hmem _ hne with ⟨-, hnone⟩ | ⟨b, hb, hrec⟩
    · exact hnone c hc hco
    · have hle := hrec.le c hc hco
      exact (hprocesses b hne hb).1 hp (suppresses_iff.2 (.inl (UInt32.lt_of_lt_of_le hlt hle)))
  · rcases hmem _ hne with ⟨hnone, -⟩ | ⟨b, hb, hrec⟩
    · exact hnew hne hnone
    · obtain ⟨x, hx, hxo, hxid⟩ := hrec.reached
      have hlt := hall x hx hxo
      rw [hxid] at hlt
      rw [hprocesses b hne hb, suppresses_iff]
      rintro (hgt | ⟨heq, -⟩)
      · exact UInt32.lt_asymm hlt hgt
      · exact UInt32.lt_irrefl _ (heq ▸ hlt)
  · rcases hmem _ hne with ⟨hnone, hcs⟩ | ⟨b, hb, hrec⟩
    · exact ⟨fun _ c hc hco => absurd hco (hcs c hc), fun _ => hnew hne hnone⟩
    · -- the record has the id of the first copy, since none is newer
      obtain ⟨x, hx, hxo, hxid⟩ := hrec.reached
      obtain ⟨y, hy, hycs, hyo⟩ := exists_first ⟨x, hx, hxo⟩
      have hyle := hrec.le y hycs hyo
      have hbid : b.bid = m.rreq_id :=
        UInt32.le_antisymm (hxid ▸ hall x hx hxo) (hfirst y hy ▸ hyle)
      obtain ⟨hmin, z, hz, hzo, hzid, hzhop⟩ := hrec.hops fun c hc => (hfirst c hc).trans hbid.symm
      rw [hprocesses b hne hb, suppresses_iff]
      constructor
      · intro hno c hc hco hcid
        have hlt : m.rreq_hopcount < b.hopcnt := UInt8.not_le.1 fun hle => hno (.inr ⟨hbid, hle⟩)
        exact UInt8.lt_of_lt_of_le hlt (hmin c hc hco (hcid.trans hbid.symm))
      · rintro hless (hgt | ⟨-, hle⟩)
        · exact UInt32.lt_irrefl _ (hbid ▸ hgt)
        · exact absurd (hzhop ▸ hless z hz hzo (hzid.trans hbid)) (UInt8.not_lt.2 hle)

/-- A RREQ of node 2 with an id and a hop count. -/
def copyOf (rreq_id : UInt32) (rreq_hopcount : UInt8) : Copy :=
  ⟨⟨0, fun _ => false, 0, 0, 0⟩, 2, 15, ⟨false, false, true, rreq_hopcount, rreq_id, 9, 0, 2, 1⟩⟩

/-- A late copy of an older RREQ does not count, neither for the RREQ nor for later copies of it. -/
theorem recvAll_suppresses_late :
    let s := (AODV.init 1).recvAll .defaults [copyOf 2 3, copyOf 1 0]
    s.Processes (copyOf 2 2).my_rreq ∧ ¬ s.Processes (copyOf 2 3).my_rreq ∧
      ¬ s.Processes (copyOf 1 0).my_rreq ∧ s.Processes (copyOf 3 4).my_rreq := by
  have h := recvAll_suppresses .defaults (AODV.init 1) (by decide) [copyOf 2 3, copyOf 1 0]
  refine ⟨?_, ?_, ?_, ?_⟩
  · exact ((h _).same (by decide) (by decide) (by decide)).2 (by decide)
  · exact fun hp => absurd (((h _).same (by decide) (by decide) (by decide)).1 hp) (by decide)
  · exact (h _).older (by decide)
  · exact (h _).newer (by decide) (by decide)

/-- The first copy of a RREQ that comes after a newer one is not processed. -/
theorem first_copy_dropped :
    ¬ (AODV.init 1).ProcessesShorter .defaults [copyOf 2 0] (copyOf 1 0).my_rreq := by
  intro h
  have hprocesses := h.2 ⟨by decide, by decide⟩
  exact absurd hprocesses (by decide)

end Aodv
