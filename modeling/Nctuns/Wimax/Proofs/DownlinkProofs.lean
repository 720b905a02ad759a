import Nctuns.Wimax.Proofs.BSSchedulerProofs

/-!
# What the downlink grants

The scheduler starts with bursts of which nothing is granted, and always ends. Everything that waits is
granted exactly when its symbols are available; else all symbols that are available are given away.
-/

namespace Wimax

/-! ## What is collected -/

/-- The PDUs for which a connection asks. -/
def BurstConnection.PduInfo : BurstConnection → List Nat
  | .management c => c.GetInformation.2
  | .data c => c.GetInformation.2
  | .broadcast => []

namespace AllocInfo

variable {a : AllocInfo}

/-- The PDUs are those for which the connection asks. -/
def Lists (a : AllocInfo) : Prop := a.conn ≠ .broadcast ∧ a.pduInfo = a.conn.PduInfo

/-- All that the connection asks for is granted. -/
structure Done (a : AllocInfo) : Prop where
  len : a.len = a.base + a.pduInfo.sum
  lists : a.Lists

/-- Nothing is granted. -/
structure Fresh (a : AllocInfo) : Prop where
  position : a.position = 0
  len : a.len = a.base
  pos : ∀ n ∈ a.pduInfo, 1 < n
  lists : a.Lists

/-- A fresh entry has been granted nothing. -/
theorem Fresh.granted (h : a.Fresh) : a.granted = 0 := by
  unfold AllocInfo.granted
  rw [h.position, List.take_zero, List.sum_nil]

/-- A fresh entry is between two PDUs. -/
theorem Fresh.even (h : a.Fresh) : a.Even := by
  unfold Even
  rw [h.len, h.granted]
  omega

theorem Fresh.sound (h : a.Fresh) : a.Sound := ⟨h.pos, by rw [h.position]; exact Nat.zero_le _⟩

end AllocInfo

/-- Every PDU has a header. -/
theorem Connection.needed_pos {k : ConnClass} (c : Connection k) : ∀ n ∈ c.needed, 1 < n := by
  intro n hn
  have hlen := c.le_headerLength
  rcases List.mem_append.1 hn with hn | hn <;>
  · obtain ⟨p, -, rfl⟩ := List.mem_map.1 hn
    omega

/-- The report of a data connection says what it needs. -/
theorem DataConnection.GetInformation_eq (c : DataConnection) :
    c.GetInformation = (c.toConnection.needed.sum, c.toConnection.needed) := by
  unfold DataConnection.GetInformation
  rw [Connection.GetInformation_eq, if_pos (show c.toConnection.needed.sum < 2 ^ 31 from c.max)]

/-- Every PDU has a header. -/
theorem ManagementConnection.pdulen_pos (c : ManagementConnection) : ∀ n ∈ c.GetInformation.2, 1 < n := by
  intro n hn
  obtain ⟨mmsg, -, rfl⟩ := List.mem_map.1 hn
  unfold ManagementMessage.pdulen
  omega

namespace PMPBS

variable {s : PMPBS}

/-- The entries of management connections are fresh. -/
theorem managementInfos_fresh (cs : List ManagementConnection) : ∀ a ∈ managementInfos cs, a.Fresh := by
  intro a ha
  obtain ⟨c, -, rfl⟩ := List.mem_map.1 ha
  exact ⟨rfl, rfl, c.pdulen_pos, nofun, rfl⟩

/-- The entries of data connections are fresh. -/
theorem dataInfos_fresh (cs : List DataConnection) : ∀ a ∈ dataInfos cs, a.Fresh := by
  intro a ha
  obtain ⟨c, -, rfl⟩ := List.mem_map.1 ha
  refine ⟨rfl, rfl, ?_, nofun, rfl⟩
  show ∀ n ∈ c.GetInformation.2, 1 < n
  rw [c.GetInformation_eq]
  exact c.toConnection.needed_pos

/-- A property of the bursts, when one of them is looked up or made. -/
theorem forall_GetCorrespondBurst {p : downBurst → Prop} {f : downBurst → downBurst} {bursts : List downBurst}
    {diuc : Fin 16} (h : ∀ b ∈ bursts, p b) (hf : ∀ b, p b → p (f b)) (hnew : p (.new diuc (s.DCDProfile diuc))) :
    ∀ b ∈ s.GetCorrespondBurst diuc f bursts, p b := by
  induction bursts with
  | nil => exact List.forall_mem_singleton.2 (hf _ hnew)
  | cons b bursts ih =>
    obtain ⟨hb, hbursts⟩ := List.forall_mem_cons.1 h
    unfold GetCorrespondBurst
    split
    · exact List.forall_mem_cons.2 ⟨hf b hb, hbursts⟩
    · exact List.forall_mem_cons.2 ⟨hb, ih hbursts⟩

/-- A burst is made for a profile that has none. -/
theorem diuc_GetCorrespondBurst {f : downBurst → downBurst} (hf : ∀ b, (f b).diuc = b.diuc) (diuc : Fin 16)
    (bursts : List downBurst) :
    (s.GetCorrespondBurst diuc f bursts).map downBurst.diuc =
      if diuc ∈ bursts.map downBurst.diuc then bursts.map downBurst.diuc
      else bursts.map downBurst.diuc ++ [diuc] := by
  induction bursts with
  | nil =>
    show [_] = [diuc]
    rw [hf]
    rfl
  | cons b bursts ih =>
    unfold GetCorrespondBurst
    by_cases h : b.diuc = diuc
    · rw [if_pos h, List.map_cons, List.map_cons, hf, if_pos (by rw [h]; exact List.mem_cons_self)]
    · rw [if_neg h, List.map_cons, List.map_cons, ih]
      have hmem : diuc ∈ b.diuc :: bursts.map downBurst.diuc ↔ diuc ∈ bursts.map downBurst.diuc := by
        rw [List.mem_cons, or_iff_right (Ne.symm h)]
      by_cases hin : diuc ∈ bursts.map downBurst.diuc
      · rw [if_pos hin, if_pos (hmem.2 hin)]
      · rw [if_neg hin, if_neg (mt hmem.1 hin), List.cons_append]

/-- A profile has one burst. -/
theorem nodup_GetCorrespondBurst {f : downBurst → downBurst} (hf : ∀ b, (f b).diuc = b.diuc) (diuc : Fin 16)
    {bursts : List downBurst} (h : (bursts.map downBurst.diuc).Nodup) :
    ((s.GetCorrespondBurst diuc f bursts).map downBurst.diuc).Nodup := by
  rw [diuc_GetCorrespondBurst hf]
  split
  · exact h
  · next hnew => exact List.nodup_append.2 ⟨h, List.nodup_singleton _, by
      intro d hd e he
      rw [List.mem_singleton.1 he]
      rintro rfl
      exact hnew hd⟩

end PMPBS

namespace downBurst

variable {b : downBurst} {as : List AllocInfo} {cid : UInt16}

/-- Nothing is granted. -/
structure Untouched (b : downBurst) : Prop where
  duration : b.duration = 0
  length : b.length = 0
  fresh : ∀ a ∈ b.ConnectionCollection, a.Fresh

theorem Untouched.new (diuc : Fin 16) (fec : Fin 7) : (downBurst.new diuc fec).Untouched :=
  ⟨rfl, rfl, fun _ ha => absurd ha List.not_mem_nil⟩

theorem Untouched.push_back (h : b.Untouched) (has : ∀ a ∈ as, a.Fresh) : (b.push_back as).Untouched :=
  ⟨h.duration, h.length, List.forall_mem_append.2 ⟨h.fresh, has⟩⟩

/-- The order of the entries does not matter. -/
theorem Untouched.reverse (h : b.Untouched) :
    Untouched { b with ConnectionCollection := b.ConnectionCollection.reverse } :=
  ⟨h.duration, h.length, fun a ha => h.fresh a (List.mem_reverse.1 ha)⟩

/-- The invariant holds of a burst before its first turn. -/
theorem Untouched.kept (h : b.Untouched) (available : Int) : Kept available 0 b := by
  refine ⟨fun a ha => (h.fresh a ha).sound, ?_, Or.inl ⟨fun a ha => (h.fresh a ha).even, ?_⟩⟩
  · rw [h.duration, h.length, bytesToSymbols_zero]
  · have hzero : granted b.ConnectionCollection = 0 :=
      List.sum_eq_zero fun n hn => by
        obtain ⟨a, ha, rfl⟩ := List.mem_map.1 hn
        exact (h.fresh a ha).granted
    rw [h.length, hzero]
    rfl

/-- The bytes of all PDUs of the connections of a burst. -/
def total (as : List AllocInfo) : Nat := (as.map fun a => a.pduInfo.sum).sum

/-- The symbols that a burst needs for all its PDUs. -/
def demand (b : downBurst) : Int := bytesToSymbols (total b.ConnectionCollection) b.fec

/-- The order of the entries does not matter for the demand. -/
theorem demand_reverse (b : downBurst) :
    demand { b with ConnectionCollection := b.ConnectionCollection.reverse } = b.demand := by
  unfold demand total
  rw [List.map_reverse, List.sum_reverse]

/-- The demand depends on the code and on the PDUs only. -/
theorem demand_of_key {b' : downBurst} (h : b'.key = b.key) : b'.demand = b.demand := by
  have hfec : b'.fec = b.fec := congrArg (fun k => k.2.1) h
  have hconns := congrArg (fun k => (k.2.2.map fun c => c.2.sum).sum) h
  simp only [key, List.map_map] at hconns
  unfold demand total
  rw [hfec]
  exact congrArg (fun n : Nat => bytesToSymbols n b.fec) hconns

end downBurst

namespace PMPBS

open downBurst

variable {s : PMPBS}

/-- The bursts that are collected are untouched. -/
theorem collect_untouched (s : PMPBS) : ∀ b ∈ s.collect, b.Untouched := by
  have hfoldl : ∀ (sslist : List ssObject) (bursts : List downBurst), (∀ b ∈ bursts, b.Untouched) →
      ∀ b ∈ sslist.foldl (fun bursts pSS => s.GetCorrespondBurst pSS.diuc (fun b =>
        b.push_back (managementInfos pSS.MnConnections ++ dataInfos pSS.DataConnections)) bursts) bursts,
        b.Untouched := by
    intro sslist
    induction sslist with
    | nil => exact fun bursts h => h
    | cons pSS sslist ih =>
      intro bursts h
      refine ih _ (forall_GetCorrespondBurst h (fun b hb => hb.push_back ?_) (.new _ _))
      exact List.forall_mem_append.2 ⟨managementInfos_fresh _, dataInfos_fresh _⟩
  refine hfoldl _ _ ?_
  dsimp only
  split
  · exact fun b hb => absurd hb List.not_mem_nil
  · refine forall_GetCorrespondBurst (fun b hb => absurd hb List.not_mem_nil) (fun b hb => ?_) (.new _ _)
    have hpush := hb.push_back (managementInfos_fresh [s.initRangingConnection])
    exact ⟨hpush.duration, hpush.length, hpush.fresh⟩

/-- There is one burst for each profile. -/
theorem collect_nodup (s : PMPBS) : (s.collect.map downBurst.diuc).Nodup := by
  have hfoldl : ∀ (sslist : List ssObject) (bursts : List downBurst), (bursts.map downBurst.diuc).Nodup →
      ((sslist.foldl (fun bursts pSS => s.GetCorrespondBurst pSS.diuc (fun b =>
        b.push_back (managementInfos pSS.MnConnections ++ dataInfos pSS.DataConnections)) bursts) bursts).map
        downBurst.diuc).Nodup := by
    intro sslist
    induction sslist with
    | nil => exact fun bursts h => h
    | cons pSS sslist ih => exact fun bursts h => ih _ (nodup_GetCorrespondBurst (by intro; rfl) _ h)
  refine hfoldl _ _ ?_
  dsimp only
  split
  · exact List.nodup_nil
  · exact nodup_GetCorrespondBurst (by intro; rfl) _ List.nodup_nil

/-- Something of the connection waits. -/
def Waits (s : PMPBS) (conn : BurstConnection) : Prop :=
  match conn with
  | .management c =>
    0 < c.GetInformation.1 ∧ (c = s.initRangingConnection ∨ ∃ pSS ∈ s.sslist, c ∈ pSS.MnConnections)
  | .data c => 0 < c.GetInformation.1 ∧ ∃ pSS ∈ s.sslist, c ∈ pSS.DataConnections
  | .broadcast => False

/-- A management connection with something waiting has an entry. -/
theorem mem_managementInfos {cs : List ManagementConnection} {c : ManagementConnection} (hc : c ∈ cs)
    (h : 0 < c.GetInformation.1) : ∃ a ∈ managementInfos cs, a.conn = .management c :=
  ⟨_, List.mem_map_of_mem (List.mem_filter.2 ⟨hc, decide_eq_true h⟩), rfl⟩

/-- A data connection with something waiting has an entry. -/
theorem mem_dataInfos {cs : List DataConnection} {c : DataConnection} (hc : c ∈ cs)
    (h : 0 < c.GetInformation.1) : ∃ a ∈ dataInfos cs, a.conn = .data c :=
  ⟨_, List.mem_map_of_mem (List.mem_filter.2 ⟨hc, decide_eq_true h⟩), rfl⟩

/-- The connection has a part in a burst. -/
def Listed (conn : BurstConnection) (bursts : List downBurst) : Prop :=
  ∃ b ∈ bursts, ∃ a ∈ b.ConnectionCollection, a.conn = conn

/-- A connection that has a part in a burst keeps it. -/
theorem Listed.GetCorrespondBurst {conn : BurstConnection} {bursts : List downBurst} (h : Listed conn bursts)
    {f : downBurst → downBurst} {as : List AllocInfo}
    (hf : ∀ b, (f b).ConnectionCollection = b.ConnectionCollection ++ as) (diuc : Fin 16) :
    Listed conn (s.GetCorrespondBurst diuc f bursts) := by
  obtain ⟨b, hb, a, ha, hconn⟩ := h
  induction bursts with
  | nil => exact absurd hb List.not_mem_nil
  | cons c bursts ih =>
    unfold PMPBS.GetCorrespondBurst
    split
    · rcases List.mem_cons.1 hb with rfl | hb
      · refine ⟨f b, List.mem_cons_self, a, ?_, hconn⟩
        rw [hf]
        exact List.mem_append_left _ ha
      · exact ⟨b, List.mem_cons_of_mem _ hb, a, ha, hconn⟩
    · rcases List.mem_cons.1 hb with rfl | hb
      · exact ⟨b, List.mem_cons_self, a, ha, hconn⟩
      · obtain ⟨d, hd, hlisted⟩ := ih hb
        exact ⟨d, List.mem_cons_of_mem _ hd, hlisted⟩

/-- The connections whose entries are added have a part in a burst. -/
theorem listed_GetCorrespondBurst {f : downBurst → downBurst} {as : List AllocInfo}
    (hf : ∀ b, (f b).ConnectionCollection = b.ConnectionCollection ++ as) {a : AllocInfo} (ha : a ∈ as)
    (diuc : Fin 16) (bursts : List downBurst) : Listed a.conn (s.GetCorrespondBurst diuc f bursts) := by
  have hnew : ∀ b, a ∈ (f b).ConnectionCollection := by
    intro b
    rw [hf]
    exact List.mem_append_right _ ha
  induction bursts with
  | nil => exact ⟨_, List.mem_cons_self, a, hnew _, rfl⟩
  | cons c bursts ih =>
    unfold PMPBS.GetCorrespondBurst
    split
    · exact ⟨_, List.mem_cons_self, a, hnew _, rfl⟩
    · obtain ⟨d, hd, hlisted⟩ := ih
      exact ⟨d, List.mem_cons_of_mem _ hd, hlisted⟩

/-- Everything that waits is collected. -/
theorem collect_listed {conn : BurstConnection} (h : s.Waits conn) : Listed conn s.collect := by
  have hkeep : ∀ (sslist : List ssObject) (bursts : List downBurst), Listed conn bursts →
      Listed conn (sslist.foldl (fun bursts pSS => s.GetCorrespondBurst pSS.diuc (fun b =>
        b.push_back (managementInfos pSS.MnConnections ++ dataInfos pSS.DataConnections)) bursts) bursts) := by
    intro sslist
    induction sslist with
    | nil => exact fun bursts h => h
    | cons pSS sslist ih => exact fun bursts h => ih _ (h.GetCorrespondBurst (by intro; rfl) _)
  have hstation : ∀ (sslist : List ssObject) (bursts : List downBurst) (pSS : ssObject), pSS ∈ sslist →
      (∃ a ∈ managementInfos pSS.MnConnections ++ dataInfos pSS.DataConnections, a.conn = conn) →
      Listed conn (sslist.foldl (fun bursts pSS => s.GetCorrespondBurst pSS.diuc (fun b =>
        b.push_back (managementInfos pSS.MnConnections ++ dataInfos pSS.DataConnections)) bursts) bursts) := by
    intro sslist
    induction sslist with
    | nil => exact fun _ pSS hpSS => absurd hpSS List.not_mem_nil
    | cons first sslist ih =>
      rintro bursts pSS hpSS ⟨a, ha, rfl⟩
      rcases List.mem_cons.1 hpSS with rfl | hpSS
      · exact hkeep sslist _ (listed_GetCorrespondBurst (by intro; rfl) ha _ _)
      · exact ih _ pSS hpSS ⟨a, ha, rfl⟩
  cases conn with
  | broadcast => exact absurd h id
  | data c =>
    obtain ⟨hpos, pSS, hpSS, hc⟩ := h
    obtain ⟨a, ha, hconn⟩ := mem_dataInfos hc hpos
    exact hstation _ _ pSS hpSS ⟨a, List.mem_append_right _ ha, hconn⟩
  | management c =>
    obtain ⟨hpos, rfl | ⟨pSS, hpSS, hc⟩⟩ := h
    · obtain ⟨a, ha, hconn⟩ := mem_managementInfos (List.mem_singleton_self s.initRangingConnection) hpos
      refine hkeep _ _ ?_
      rw [if_neg (List.ne_nil_of_mem ha), ← hconn]
      exact listed_GetCorrespondBurst (by intro; rfl) ha _ _
    · obtain ⟨a, ha, hconn⟩ := mem_managementInfos hc hpos
      exact hstation _ _ pSS hpSS ⟨a, List.mem_append_left _ ha, hconn⟩

/-- The symbols that the downlink needs for everything that waits. -/
def demand (s : PMPBS) : Int := (s.collect.map downBurst.demand).sum

end PMPBS

/-! ## What is granted -/

/-- The next PDU of an entry that waits has not been granted. -/
theorem AllocInfo.granted_add_le {a : AllocInfo} (h : a.Waits) : a.granted + a.getNext ≤ a.pduInfo.sum := by
  have hsplit := List.sum_take_add_sum_drop a.pduInfo (a.position + 1)
  rw [granted_succ h] at hsplit
  omega

/-- An entry that does not wait has been granted all its PDUs. -/
theorem AllocInfo.granted_eq {a : AllocInfo} (hnot : ¬ a.Waits) : a.granted = a.pduInfo.sum := by
  have hle : a.pduInfo.length ≤ a.position := Nat.not_lt.1 hnot
  unfold AllocInfo.granted
  rw [List.take_of_length_le hle]

namespace downBurst

variable {b : downBurst} {available allocSymbols : Int}

/-- No more is granted than waits. -/
theorem granted_le_total (as : List AllocInfo) : granted as ≤ total as :=
  List.sum_le_sum fun a _ => by
    unfold AllocInfo.granted
    have hsplit := List.sum_take_add_sum_drop a.pduInfo a.position
    omega

/-- An open burst does not last longer than all of its PDUs need. -/
theorem Open.duration_le (hk : Kept available allocSymbols b) (h : b.Open) : b.duration ≤ b.demand := by
  have hle := granted_le_total b.ConnectionCollection
  have hlen := h.length
  rw [hk.duration]
  exact bytesToSymbols_mono hk.length (by omega) _

/-- An open burst in which nothing waits has the length of all its PDUs. -/
theorem Open.length_eq (h : b.Open) (hnone : ∀ a ∈ b.ConnectionCollection, ¬ a.Waits) :
    b.length = total b.ConnectionCollection := by
  have hsum : granted b.ConnectionCollection = total b.ConnectionCollection := by
    unfold granted total
    exact congrArg List.sum (List.map_congr_left fun a ha => AllocInfo.granted_eq (hnone a ha))
  rw [h.length, hsum]

/-- A burst that is full does not have the symbols for the PDU that waits. -/
theorem Full.duration_lt (hk : Kept available allocSymbols b) (h : b.Full) : b.duration < b.demand := by
  obtain ⟨pre, a, post, rest, hfilled⟩ := h
  have htotal : granted b.ConnectionCollection + a.getNext ≤ total b.ConnectionCollection := by
    have hpre := granted_le_total pre
    have hpost := granted_le_total post
    have ha := AllocInfo.granted_add_le hfilled.waits
    have hsum : total b.ConnectionCollection = total pre + (a.pduInfo.sum + total post) := by
      rw [hfilled.split]
      unfold total
      rw [List.map_append, List.sum_append, List.map_cons, List.sum_cons]
    rw [hsum, hfilled.split, granted_append, granted_cons]
    omega
  have hlength := hfilled.length
  have hlt := hfilled.lt
  have hnonneg := hk.length
  have ha : a ∈ b.ConnectionCollection := by
    rw [hfilled.split]
    exact List.mem_append_right _ List.mem_cons_self
  have hnext := (hk.sound a ha).getNext_pos hfilled.waits
  by_contra hnot
  have hsmall := (bytesToSymbols_le (show (0 : Int) < total b.ConnectionCollection by omega) b.fec).1 (Int.not_lt.1 hnot)
  rw [← hfilled.full] at hsmall
  omega

end downBurst

namespace PMPBS

open downBurst

variable {s : PMPBS} {available allocSymbols : Int} {bursts : List downBurst}

/-- With a full burst fewer symbols are given away than are needed. -/
theorem symbols_lt_demand (hkept : ∀ b ∈ bursts, Kept available allocSymbols b) (hfull : ∃ b ∈ bursts, b.Full) :
    symbols bursts < (bursts.map downBurst.demand).sum := by
  obtain ⟨b, hb, hfull⟩ := hfull
  refine List.sum_lt_sum _ _ (fun c hc => ?_) ⟨b, hb, hfull.duration_lt (hkept b hb)⟩
  rcases (hkept c hc).state with hopen | ⟨-, hfull⟩
  · exact hopen.duration_le (hkept c hc)
  · exact (hfull.duration_lt (hkept c hc)).le

/-- Where all PDUs are granted every burst is open. -/
theorem AllGranted.open (hall : AllGranted bursts) (hkept : ∀ b ∈ bursts, Kept available allocSymbols b) :
    ∀ b ∈ bursts, b.Open := by
  intro b hb
  rcases (hkept b hb).state with hopen | ⟨-, pre, a, post, rest, hfilled⟩
  · exact hopen
  · refine absurd hfilled.waits (hall b hb a ?_)
    rw [hfilled.split]
    exact List.mem_append_right _ List.mem_cons_self

/-- Where all PDUs are granted the symbols are those that are needed. -/
theorem AllGranted.symbols_eq (hall : AllGranted bursts) (hkept : ∀ b ∈ bursts, Kept available allocSymbols b) :
    symbols bursts = (bursts.map downBurst.demand).sum := by
  refine congrArg List.sum (List.map_congr_left fun b hb => ?_)
  rw [(hkept b hb).duration, (hall.open hkept b hb).length_eq (hall b hb)]
  rfl

/-- What the scheduler makes of the downlink. -/
structure Downlink (s : PMPBS) (available allocSymbols : Int) (bursts : List downBurst) : Prop where
  kept : ∀ b ∈ bursts, Kept available allocSymbols b
  sum : symbols bursts = allocSymbols
  le : allocSymbols ≤ available
  /-- No symbol is kept back from a PDU that waits. -/
  conserving : AllGranted bursts ∨ allocSymbols = available
  all : AllGranted bursts ↔ s.demand ≤ available
  lists : ∀ b ∈ bursts, ∀ a ∈ b.ConnectionCollection, a.Lists
  listed : ∀ conn, s.Waits conn → Listed conn bursts
  profiles : (bursts.map downBurst.diuc).Nodup

/-- **The downlink.** The scheduler ends, for each set of stations and all that waits in their queues. -/
theorem DLScheduling_ends (s : PMPBS) (coin : Bool) (h : 0 ≤ available) :
    ∃ allocSymbols bursts, s.DLScheduling coin available = some (allocSymbols, bursts) ∧
      s.Downlink available allocSymbols bursts := by
  obtain ⟨bursts, hbursts⟩ : ∃ bursts, (if coin then
      s.collect.map fun b => { b with ConnectionCollection := b.ConnectionCollection.reverse }
    else s.collect) = bursts := ⟨_, rfl⟩
  have hstart : (∀ b ∈ bursts, b.Untouched) ∧ (bursts.map downBurst.demand).sum = s.demand ∧
      (bursts.map downBurst.diuc).Nodup ∧ ∀ conn, s.Waits conn → Listed conn bursts := by
    rw [← hbursts]
    split
    · refine ⟨fun b hb => ?_, ?_, ?_, fun conn hwaits => ?_⟩
      · obtain ⟨c, hc, rfl⟩ := List.mem_map.1 hb
        exact (s.collect_untouched c hc).reverse
      · unfold demand
        rw [List.map_map]
        exact congrArg List.sum (List.map_congr_left fun b _ => b.demand_reverse)
      · rw [List.map_map]
        exact s.collect_nodup
      · obtain ⟨b, hb, a, ha, hconn⟩ := collect_listed hwaits
        exact ⟨_, List.mem_map_of_mem hb, a, List.mem_reverse.2 ha, hconn⟩
    · exact ⟨s.collect_untouched, rfl, s.collect_nodup, fun _ => collect_listed⟩
  obtain ⟨huntouched, hdemand, hnodup, hlisted⟩ := hstart
  have hzero : symbols bursts = 0 := List.sum_eq_zero fun n hn => by
    obtain ⟨b, hb, rfl⟩ := List.mem_map.1 hn
    exact (huntouched b hb).duration
  obtain ⟨allocSymbols', bursts', hrounds, hround, hend⟩ := rounds_round (waiting bursts + 1)
    (Nat.lt_succ_self _) h fun b hb => (huntouched b hb).kept available
  have hsum : symbols bursts' = allocSymbols' := by
    have hsum := hround.sum
    omega
  have hsame : (bursts'.map downBurst.demand).sum = s.demand := by
    rw [← hdemand]
    refine congrArg List.sum (List.ext_getElem ?_ fun i h₁ h₂ => ?_)
    · have hlen := congrArg List.length hround.keys
      simpa using hlen
    · have hi := congrArg (fun keys => keys[i]?) hround.keys
      rw [List.length_map] at h₁ h₂
      simp only [List.getElem?_map, List.getElem?_eq_getElem h₁, List.getElem?_eq_getElem h₂, Option.map_some,
        Option.some.injEq] at hi
      rw [List.getElem_map, List.getElem_map]
      exact demand_of_key hi
  refine ⟨allocSymbols', bursts', ?_, hround.kept, hsum, hround.le, hend.imp id And.right,
    ⟨fun hall => ?_, fun hfits => ?_⟩, fun b hb a ha => ?_, fun conn hwaits => ?_, ?_⟩
  · unfold DLScheduling
    rw [← hrounds, ← hbursts]
  · rw [← hsame, ← hall.symbols_eq hround.kept, hsum]
    exact hround.le
  · rcases hend with hall | ⟨hfull, havailable⟩
    · exact hall
    · have hlt := symbols_lt_demand hround.kept hfull
      omega
  · have hkey : b.key ∈ bursts.map downBurst.key := by
      rw [← hround.keys]
      exact List.mem_map_of_mem hb
    obtain ⟨c, hc, hkey⟩ := List.mem_map.1 hkey
    have hinfo : (a.conn, a.pduInfo) ∈ c.key.2.2 := by
      rw [hkey]
      exact List.mem_map_of_mem ha
    obtain ⟨d, hd, hconn⟩ := List.mem_map.1 hinfo
    unfold AllocInfo.Lists
    rw [← (Prod.mk.inj hconn).1, ← (Prod.mk.inj hconn).2]
    exact ((huntouched c hc).fresh d hd).lists
  · obtain ⟨b, hb, a, ha, hconn⟩ := hlisted conn hwaits
    have hkey : b.key ∈ bursts'.map downBurst.key := by
      rw [hround.keys]
      exact List.mem_map_of_mem hb
    obtain ⟨c, hc, hkey⟩ := List.mem_map.1 hkey
    have hinfo : (a.conn, a.pduInfo) ∈ c.key.2.2 := by
      rw [hkey]
      exact List.mem_map_of_mem ha
    obtain ⟨d, hd, hsame⟩ := List.mem_map.1 hinfo
    exact ⟨c, hc, d, hd, (Prod.mk.inj hsame).1.trans hconn⟩
  · have hdiuc := congrArg (List.map Prod.fst) hround.keys
    rw [List.map_map, List.map_map] at hdiuc
    exact hdiuc ▸ hnodup

/-- A management message and a packet wait, in different profiles. -/
def twoProfiles : PMPBS where
  sslist := [⟨1, 3, 7, some 8000, [⟨1, [⟨20, by decide, by decide⟩], by decide⟩], []⟩,
    ⟨2, 1, 5, none, [], [⟨.DataConnection, 9, [.Insert ⟨⟨[], List.replicate 40 0⟩, rfl, by decide, by decide⟩], by decide⟩]⟩]
  PolledList := [2]
  initRangingConnection := ⟨initRangingCID, [], by decide⟩
  broadcastConnection := ⟨none, none, none, none, none⟩
  DCDProfile := ![0, 0, 1, 2, 3, 4, 5, 6, 0, 0, 0, 0, 0, 0, 0, 0]
  UCDProfile := ![0, 0, 0, 0, 0, 0, 1, 2, 3, 4, 5, 6, 0, 0, 0, 0]
  dlmapflag := true

/-- Two stations with profiles of their own. -/
theorem DLScheduling_ends_twoProfiles :
    ∃ allocSymbols bursts, twoProfiles.DLScheduling true 646 = some (allocSymbols, bursts) ∧
      twoProfiles.Downlink 646 allocSymbols bursts :=
  twoProfiles.DLScheduling_ends true (by decide)

end PMPBS

end Wimax
