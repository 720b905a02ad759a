import Mathlib.Data.List.Nodup
import Nctuns.Arp.Arp

/-!
# Where the packets of an ARP module are

Every entry either knows an address that its host has announced, or none and perhaps holds a packet. An
address that comes with a request, or with something for another node, goes into the entry without the
packet being sent. Of a packet that finds the table full nothing is kept.
-/

namespace Arp

open State

variable {s t : State} {now : Nat} {pkt : Packet} {p : ArpPkt} {mt : MapTbl} {log log' : List Event}
  {held held' : List Packet} {i : Input}

/-! ## The log -/

/-- Every packet from above is sent, waits or is freed, as often as it has come. -/
def Balanced (log : List Event) (held : List Packet) : Prop :=
  ∀ pkt, (log.filterMap Event.given?).count pkt =
    (log.filterMap Event.sent?).count pkt + held.count pkt + (log.filterMap Event.freed?).count pkt

theorem Balanced.heard (h : Balanced log held) (ip : Ip) (mac : Mac) :
    Balanced (.heard ip mac :: log) held := h

theorem Balanced.request (h : Balanced log held) (ip : Ip) : Balanced (.request ip :: log) held := h

theorem Balanced.reply (h : Balanced log held) (ip : Ip) (mac : Mac) :
    Balanced (.reply ip mac :: log) held := h

/-- A packet comes and is sent on. -/
theorem Balanced.pass (h : Balanced log held) (pkt : Packet) (mac : Mac) :
    Balanced (.sent pkt mac :: .given pkt :: log) held := by
  intro q
  have hq := h q
  simp only [List.filterMap_cons, Event.given?, Event.sent?, Event.freed?, List.count_cons]
  omega

/-- A packet comes and is held. -/
theorem Balanced.hold (h : Balanced log held) (pkt : Packet) (held' : List Packet)
    (hheld : ∀ q, held'.count q = held.count q + [pkt].count q) : Balanced (.given pkt :: log) held' := by
  intro q
  have hq := h q
  have hmore := hheld q
  simp only [List.filterMap_cons, Event.given?, Event.sent?, Event.freed?, List.count_cons,
    List.count_nil] at hmore ⊢
  omega

/-- A held packet is sent on. -/
theorem Balanced.resume (h : Balanced log held) (pkt : Packet) (mac : Mac)
    (hheld : ∀ q, held'.count q + [pkt].count q = held.count q) : Balanced (.sent pkt mac :: log) held' := by
  intro q
  have hq := h q
  have hless := hheld q
  simp only [List.filterMap_cons, Event.given?, Event.sent?, Event.freed?, List.count_cons,
    List.count_nil] at hless ⊢
  omega

/-- What has been held is freed. -/
theorem Balanced.freeHeld (h : Balanced log held) (old : Option Packet)
    (hheld : ∀ q, held'.count q + old.toList.count q = held.count q) :
    Balanced (State.freeHeld log old) held' := by
  intro q
  have hq := h q
  have hless := hheld q
  cases old with
  | none =>
    simp only [State.freeHeld, Option.toList_none, List.count_nil] at hless ⊢
    omega
  | some pkt =>
    simp only [State.freeHeld, Option.toList_some, List.filterMap_cons, Event.given?, Event.sent?,
      Event.freed?, List.count_cons, List.count_nil] at hless ⊢
    omega

/-- A packet that is freed announces nothing. -/
theorem announced_freeHeld (log : List Event) (old : Option Packet) (ip : Ip) :
    announced (freeHeld log old) ip = announced log ip := by
  cases old <;> rfl

theorem sentRight_freeHeld (old : Option Packet) : SentRight (freeHeld log old) ↔ SentRight log := by
  cases old <;> exact Iff.rfl

/-! ## Entries -/

/-- A packet waits for its next hop in an entry without an address, and an address has been announced. -/
structure Fits (log : List Event) (mt : MapTbl) : Prop where
  waits : ∀ pkt ∈ mt.pkt, pkt.rt_gateway = mt.ip ∧ ¬ isBroadcast mt.ip ∧ mt.mac = ETHER_NULLADDR
  known : mt.mac ≠ ETHER_NULLADDR → announced log mt.ip = some mt.mac

theorem Fits.congr (h : Fits log mt) (hlog : announced log' mt.ip = announced log mt.ip) : Fits log' mt :=
  ⟨h.waits, fun hmac => hlog.trans (h.known hmac)⟩

/-- What holds between the log and the table in every state. -/
structure Inv (s : State) : Prop where
  balanced : Balanced s.log s.held
  sentRight : SentRight s.log
  fits : ∀ mt ∈ s.arpTable, Fits s.log mt
  nodup : (s.arpTable.map MapTbl.ip).Nodup

/-- Nothing has come. -/
theorem init_inv (ip_ : Ip) (flushInterval_ : Nat) : Inv (init ip_ flushInterval_) where
  balanced _ := rfl
  sentRight := trivial
  fits _ h := absurd h List.not_mem_nil
  nodup := List.nodup_nil

/-- The invariant gives the account. -/
theorem Inv.accounted (h : Inv s) : s.Accounted where
  balanced := h.balanced
  sentRight := h.sentRight
  nextHop mt hmt pkt hpkt := ((h.fits mt hmt).waits pkt hpkt).1
  waiting mt hmt hsome := by
    obtain ⟨pkt, hpkt⟩ := Option.isSome_iff_exists.1 hsome
    exact ((h.fits mt hmt).waits pkt hpkt).2.2
  nodup := h.nodup

theorem Inv.entry (h : Inv s) {ip : Ip} (hentry : s.entry ip = some mt) : mt.ip = ip ∧ Fits s.log mt :=
  ⟨Keyed.key_of_get hentry, h.fits mt (Keyed.mem_of_get hentry)⟩

/-- An entry changes together with the log. -/
theorem Inv.change (h : Inv s) (log : List Event) {ip : Ip} {f : MapTbl → MapTbl}
    (hentry : s.entry ip = some mt)
    (hip : ∀ mt, (f mt).ip = mt.ip) (hlog : ∀ j, j ≠ ip → announced log j = announced s.log j)
    (hfits : Fits log (f mt)) (hright : SentRight log) (hbalanced : Balanced log (s.setEntry ip f).held) :
    Inv { s.setEntry ip f with log := log } where
  balanced := hbalanced
  sentRight := hright
  fits q hq := by
    rcases Keyed.mem_update h.nodup hq with ⟨r, hr, rfl⟩ | ⟨hq, hne⟩
    · obtain rfl := Option.some.inj (hr.symm.trans hentry)
      exact hfits
    · exact (h.fits q hq).congr (hlog _ hne)
  nodup := by
    show ((Keyed.update MapTbl.ip ip f s.arpTable).map MapTbl.ip).Nodup
    rw [Keyed.map_update fun r hr => (hip r).trans hr]
    exact h.nodup

/-- The entry that is written is found. -/
theorem entry_setEntry {ip : Ip} {f : MapTbl → MapTbl} (hentry : s.entry ip = some mt)
    (hip : ∀ mt, (f mt).ip = mt.ip) : (s.setEntry ip f).entry ip = some (f mt) := by
  have hget : Keyed.get MapTbl.ip ip s.arpTable = some mt := hentry
  show Keyed.get MapTbl.ip ip (Keyed.update MapTbl.ip ip f s.arpTable) = _
  rw [Keyed.get_update fun r hr => (hip r).trans hr, if_pos rfl, hget]
  rfl

/-- Two writes of one entry. -/
theorem setEntry_setEntry {ip : Ip} {f g : MapTbl → MapTbl} (hip : ∀ mt, (g mt).ip = mt.ip) :
    (s.setEntry ip g).setEntry ip f = s.setEntry ip fun mt => f (g mt) := by
  unfold State.setEntry
  simp only [Keyed.update_update fun r hr => (hip r).trans hr]

/-- The packets that wait, when an entry is written. -/
theorem count_held_setEntry {ip : Ip} {f : MapTbl → MapTbl} (hentry : s.entry ip = some mt) (q : Packet) :
    (s.setEntry ip f).held.count q + mt.pkt.toList.count q = s.held.count q + (f mt).pkt.toList.count q :=
  Keyed.count_filterMap_update hentry q

/-- A write that leaves the packet. -/
theorem count_held_of_pkt {ip : Ip} {f : MapTbl → MapTbl} (hentry : s.entry ip = some mt)
    (hpkt : (f mt).pkt = mt.pkt) (q : Packet) : (s.setEntry ip f).held.count q = s.held.count q := by
  have hcount := count_held_setEntry (f := f) hentry q
  rw [hpkt] at hcount
  omega

/-- An entry for a new address comes with its log. -/
theorem Inv.add (h : Inv s) (log : List Event) {new : MapTbl} (hentry : s.entry new.ip = none)
    (hlog : ∀ j, j ≠ new.ip → announced log j = announced s.log j) (hfits : Fits log new)
    (hright : SentRight log) (hbalanced : Balanced log (s.held ++ new.pkt.toList)) :
    Inv { s with arpTable := s.arpTable ++ [new], log := log } where
  balanced := by
    have hheld : (s.arpTable ++ [new]).filterMap MapTbl.pkt = s.held ++ new.pkt.toList := by
      rw [List.filterMap_append, List.filterMap_cons]
      cases new.pkt <;> rfl
    show Balanced log ((s.arpTable ++ [new]).filterMap MapTbl.pkt)
    rw [hheld]
    exact hbalanced
  sentRight := hright
  fits q hq := by
    rcases List.mem_append.1 hq with hq | hq
    · exact (h.fits q hq).congr (hlog _ (Keyed.get_eq_none.1 hentry q hq))
    · obtain rfl := List.mem_singleton.1 hq
      exact hfits
  nodup := by
    show ((s.arpTable ++ [new]).map MapTbl.ip).Nodup
    rw [List.map_append]
    refine List.nodup_append.2 ⟨h.nodup, List.nodup_singleton _, ?_⟩
    intro a ha b hb
    obtain ⟨q, hq, rfl⟩ := List.mem_map.1 ha
    obtain rfl := List.mem_singleton.1 hb
    exact Keyed.get_eq_none.1 hentry q hq

/-! ## A packet from above -/

/-- A packet for all. -/
theorem send_broadcast (hip : isBroadcast pkt.rt_gateway) :
    s.send now pkt = .ok ((s.record (.given pkt)).record (.sent pkt ETHER_BROADCAST)) := by
  unfold State.send findArpTbl
  rw [if_pos hip]

/-- A packet for an address that is known. -/
theorem send_known (hip : ¬ isBroadcast pkt.rt_gateway) (hentry : s.entry pkt.rt_gateway = some mt)
    (hmac : mt.mac ≠ ETHER_NULLADDR) :
    s.send now pkt = .ok (((s.record (.given pkt)).setEntry pkt.rt_gateway fun mt =>
      { mt with timestamp := s.stamp now }).record (.sent pkt mt.mac)) := by
  have hsame : (s.record (.given pkt)).entry pkt.rt_gateway = some mt := hentry
  unfold State.send findArpTbl
  rw [if_neg hip, hsame]
  simp only [if_pos hmac]
  rfl

/-- A packet for an address that is asked for. -/
theorem send_waiting (hip : ¬ isBroadcast pkt.rt_gateway) (hentry : s.entry pkt.rt_gateway = some mt)
    (hmac : mt.mac = ETHER_NULLADDR) :
    s.send now pkt = .ok { s.setEntry pkt.rt_gateway fun mt => { mt with pkt := some pkt } with
      log := freeHeld (.given pkt :: s.log) mt.pkt } := by
  have hsame : (s.record (.given pkt)).entry pkt.rt_gateway = some mt := hentry
  unfold State.send findArpTbl
  rw [if_neg hip, hsame]
  simp only [if_neg (not_not.2 hmac)]
  unfold updatePktBuf
  rw [hsame]
  rfl

/-- A packet for an address that is not known. -/
theorem send_new (hip : ¬ isBroadcast pkt.rt_gateway) (hentry : s.entry pkt.rt_gateway = none) (now : Nat) :
    s.send now pkt = .ok (((s.record (.given pkt)).addArpTbl now pkt.rt_gateway none (some pkt)).arpRequest
      pkt.rt_gateway) := by
  have hsame : (s.record (.given pkt)).entry pkt.rt_gateway = none := hentry
  unfold State.send findArpTbl
  rw [if_neg hip, hsame]

/-- A new entry joins the table. -/
theorem addArpTbl_room (h : s.arpTable.length < ARP_TBL_MAX_ENTRYS) (now : Nat) (ip : Ip)
    (mac : Option Mac) (old : Option Packet) : s.addArpTbl now ip mac old =
      { s with arpTable := s.arpTable ++ [⟨ip, mac.getD ETHER_NULLADDR, s.stamp now, old⟩] } :=
  if_neg (Nat.not_le.2 h)

/-- A full table stays as it is. -/
theorem addArpTbl_full (h : ¬ s.arpTable.length < ARP_TBL_MAX_ENTRYS) (now : Nat) (ip : Ip)
    (mac : Option Mac) (old : Option Packet) : s.addArpTbl now ip mac old = s :=
  if_pos (Nat.le_of_not_lt h)

/-- **Send.** With room for an entry. -/
theorem Inv.send (h : Inv s) (hroom : s.Covered (.send now pkt)) :
    ∃ t, s.send now pkt = .ok t ∧ Inv t := by
  by_cases hip : isBroadcast pkt.rt_gateway
  · refine ⟨_, send_broadcast hip, h.balanced.pass _ _, ⟨if_pos hip, h.sentRight⟩, ?_, h.nodup⟩
    exact fun mt hmt => (h.fits mt hmt).congr rfl
  cases hentry : s.entry pkt.rt_gateway with
  | none =>
    have hspace := addArpTbl_room (s := s.record (.given pkt)) (hroom hip hentry) now pkt.rt_gateway none
      (some pkt)
    refine ⟨_, send_new hip hentry now, ?_⟩
    rw [hspace]
    refine h.add (.request pkt.rt_gateway :: .given pkt :: s.log) hentry (fun _ _ => rfl) ⟨?_, ?_⟩
      h.sentRight (Balanced.request (h.balanced.hold pkt _ fun q => ?_) _)
    · intro q hq
      obtain rfl := Option.some.inj hq
      exact ⟨rfl, hip, rfl⟩
    · exact fun hmac => absurd rfl hmac
    · rw [List.count_append, Option.toList_some]
  | some mt =>
    obtain ⟨hmt, hfits⟩ := h.entry hentry
    by_cases hmac : mt.mac = ETHER_NULLADDR
    · refine ⟨_, send_waiting hip hentry hmac, h.change _ hentry (fun _ => rfl) ?_ ?_ ?_ ?_⟩
      · exact fun j _ => announced_freeHeld _ _ j
      · refine ⟨?_, fun hknown => absurd hmac hknown⟩
        intro q hq
        obtain rfl := Option.some.inj hq
        exact ⟨hmt.symm, by rw [hmt]; exact hip, hmac⟩
      · exact (sentRight_freeHeld _).2 h.sentRight
      · refine (h.balanced.hold pkt (s.held ++ [pkt]) fun q => List.count_append).freeHeld _ ?_
        intro q
        rw [count_held_setEntry hentry, List.count_append, Option.toList_some]
    · refine ⟨_, send_known hip hentry hmac, h.change _ hentry (fun _ => rfl) (fun _ _ => rfl) ?_ ?_ ?_⟩
      · exact ⟨hfits.waits, hfits.known⟩
      · refine ⟨?_, h.sentRight⟩
        show nextHopMac s.log pkt.rt_gateway = some mt.mac
        rw [nextHopMac, if_neg hip, ← hmt]
        exact hfits.known hmac
      · refine Balanced.pass (fun q => ?_) _ _
        rw [count_held_of_pkt hentry rfl]
        exact h.balanced q

/-! ## An ARP packet -/

/-- An ARP packet for another station. -/
theorem recv_other (htpa : p.ar_tpa ≠ s.ip_) :
    s.recv now p = .ok ((s.record (.heard p.ar_spa p.ar_sha)).freeArpUpdate now p).1 := by
  have hsame : ((s.record (.heard p.ar_spa p.ar_sha)).freeArpUpdate now p).1.ip_ = s.ip_ := by
    unfold freeArpUpdate
    split <;> rfl
  unfold State.recv
  simp only [hsame, if_neg htpa]

/-- The state of a node that an ARP packet is for, once it knows the sender's address. -/
def learned (s : State) (now : Nat) (p : ArpPkt) : State :=
  match s.entry p.ar_spa with
  | some _ => (s.record (.heard p.ar_spa p.ar_sha)).setEntry p.ar_spa fun mt =>
      { mt with mac := p.ar_sha, timestamp := s.stamp now }
  | none => (s.record (.heard p.ar_spa p.ar_sha)).addArpTbl now p.ar_spa (some p.ar_sha) none

/-- An ARP packet for the station itself. -/
theorem recv_own (htpa : p.ar_tpa = s.ip_) (now : Nat) :
    s.recv now p =
      if p.ar_op = ARPOP_REQUEST then .ok ((learned s now p).arpReply p)
      else if p.ar_op = ARPOP_REPLY then (learned s now p).resumeSend p
      else .error .assertion := by
  have hsame : (s.record (.heard p.ar_spa p.ar_sha)).entry p.ar_spa = s.entry p.ar_spa := rfl
  unfold State.recv freeArpUpdate learned
  rw [hsame]
  cases s.entry p.ar_spa with
  | none =>
    have hip : (s.record (.heard p.ar_spa p.ar_sha)).ip_ = s.ip_ := rfl
    simp only [hip, if_pos htpa]
    rfl
  | some mt =>
    have hip : ∀ f, ((s.record (.heard p.ar_spa p.ar_sha)).setEntry p.ar_spa f).ip_ = s.ip_ := fun _ => rfl
    simp only [hip, if_pos htpa, if_true]
    rfl

theorem announced_heard_self (log : List Event) (ip : Ip) (mac : Mac) :
    announced (.heard ip mac :: log) ip = some mac := if_pos rfl

theorem announced_heard_ne {ip j : Ip} (log : List Event) (mac : Mac) (h : j ≠ ip) :
    announced (.heard ip mac :: log) j = announced log j := if_neg h.symm

/-- The address in an ARP packet goes into the entry for it. -/
theorem Inv.setMac (h : Inv s) (hentry : s.entry p.ar_spa = some mt)
    (hfree : mt.pkt.isSome → p.ar_sha = ETHER_NULLADDR) (stamp : Nat) :
    Inv ((s.record (.heard p.ar_spa p.ar_sha)).setEntry p.ar_spa fun mt =>
      { mt with mac := p.ar_sha, timestamp := stamp }) := by
  obtain ⟨hmt, hfits⟩ := h.entry hentry
  refine h.change (.heard p.ar_spa p.ar_sha :: s.log) hentry (fun _ => rfl)
    (fun j hj => announced_heard_ne _ _ hj) ⟨?_, fun _ => ?_⟩ h.sentRight ?_
  · intro pkt hpkt
    obtain ⟨hgateway, hip, -⟩ := hfits.waits pkt hpkt
    exact ⟨hgateway, hip, hfree (Option.isSome_iff_exists.2 ⟨pkt, hpkt⟩)⟩
  · rw [← hmt]
    exact announced_heard_self _ _ _
  · intro q
    rw [count_held_of_pkt hentry rfl]
    exact h.balanced q

/-- What an ARP packet announces while there is no entry for it. -/
theorem Inv.heard (h : Inv s) (hentry : s.entry p.ar_spa = none) :
    Inv (s.record (.heard p.ar_spa p.ar_sha)) where
  balanced := h.balanced
  sentRight := h.sentRight
  fits mt hmt := (h.fits mt hmt).congr (announced_heard_ne _ _ (Keyed.get_eq_none.1 hentry mt hmt))
  nodup := h.nodup

/-- The sender is learnt. -/
theorem Inv.learn (h : Inv s) (hentry : s.entry p.ar_spa = none) (now : Nat) : Inv (learned s now p) := by
  unfold learned
  rw [hentry]
  by_cases hroom : s.arpTable.length < ARP_TBL_MAX_ENTRYS
  · have hspace := addArpTbl_room (s := s.record (.heard p.ar_spa p.ar_sha)) hroom now p.ar_spa
      (some p.ar_sha) none
    simp only [hspace]
    refine h.add (.heard p.ar_spa p.ar_sha :: s.log) hentry (fun j hj => announced_heard_ne _ _ hj)
      ⟨(fun _ hq => by cases hq), fun _ => announced_heard_self _ _ _⟩ h.sentRight ?_
    show Balanced _ (s.held ++ [])
    rw [List.append_nil]
    exact h.balanced.heard _ _
  · have hspace := addArpTbl_full (s := s.record (.heard p.ar_spa p.ar_sha)) hroom now p.ar_spa
      (some p.ar_sha) none
    simp only [hspace]
    exact h.heard hentry

/-- Nothing is known of the sender. -/
theorem resumeSend_null (hentry : s.entry p.ar_spa = none) : s.resumeSend p = .error .null := by
  unfold State.resumeSend
  rw [hentry]

/-- Nothing waits for the sender. -/
theorem resumeSend_idle (hentry : s.entry p.ar_spa = some mt) (hpkt : mt.pkt = none) :
    s.resumeSend p = .ok s := by
  unfold State.resumeSend
  rw [hentry]
  simp only [hpkt]

/-- A sender that is known. -/
theorem learned_known (hentry : s.entry p.ar_spa = some mt) (now : Nat) :
    learned s now p = (s.record (.heard p.ar_spa p.ar_sha)).setEntry p.ar_spa fun mt =>
      { mt with mac := p.ar_sha, timestamp := s.stamp now } := by
  unfold learned
  rw [hentry]

/-- The entry of a sender that is known. -/
theorem learned_known_entry (hentry : s.entry p.ar_spa = some mt) (now : Nat) :
    (learned s now p).entry p.ar_spa = some { mt with mac := p.ar_sha, timestamp := s.stamp now } := by
  rw [learned_known hentry]
  exact entry_setEntry (s := s.record (.heard p.ar_spa p.ar_sha)) hentry fun _ => rfl

/-- The entry of a sender that is new, if the table has room. -/
theorem learned_new_entry (hentry : s.entry p.ar_spa = none) (now : Nat) :
    (learned s now p).entry p.ar_spa = if s.arpTable.length < ARP_TBL_MAX_ENTRYS then
      some ⟨p.ar_spa, p.ar_sha, s.stamp now, none⟩ else none := by
  have hget : Keyed.get MapTbl.ip p.ar_spa s.arpTable = none := hentry
  unfold learned
  rw [hentry]
  by_cases hroom : s.arpTable.length < ARP_TBL_MAX_ENTRYS
  · have hspace := addArpTbl_room (s := s.record (.heard p.ar_spa p.ar_sha)) hroom now p.ar_spa
      (some p.ar_sha) none
    simp only [hspace, if_pos hroom]
    show Keyed.get MapTbl.ip p.ar_spa (s.arpTable ++ [_]) = _
    rw [Keyed.get_append, hget, Option.none_or, Keyed.get_cons, if_pos rfl]
    rfl
  · have hspace := addArpTbl_full (s := s.record (.heard p.ar_spa p.ar_sha)) hroom now p.ar_spa
      (some p.ar_sha) none
    simp only [hspace, if_neg hroom]
    exact hentry

/-- The packet that waits for the sender of a reply is sent on. -/
theorem Inv.resume (h : Inv s) (hentry : s.entry p.ar_spa = some mt) (hpkt : mt.pkt = some pkt) (now : Nat) :
    ∃ t, (learned s now p).resumeSend p = .ok t ∧ Inv t := by
  obtain ⟨hmt, hfits⟩ := h.entry hentry
  obtain ⟨hgateway, hip, -⟩ := hfits.waits pkt hpkt
  have hresume : (learned s now p).resumeSend p = .ok { s.setEntry p.ar_spa fun mt =>
      { mt with mac := p.ar_sha, timestamp := s.stamp now, pkt := none } with
        log := .sent pkt p.ar_sha :: .heard p.ar_spa p.ar_sha :: s.log } := by
    have htwice : (learned s now p).setEntry p.ar_spa (fun mt => { mt with pkt := none }) =
        (s.record (.heard p.ar_spa p.ar_sha)).setEntry p.ar_spa fun mt =>
          { mt with mac := p.ar_sha, timestamp := s.stamp now, pkt := none } := by
      rw [learned_known hentry]
      exact setEntry_setEntry fun _ => rfl
    unfold State.resumeSend
    rw [learned_known_entry hentry]
    simp only [hpkt, htwice]
    rfl
  refine ⟨_, hresume, h.change _ hentry (fun _ => rfl) (fun j hj => announced_heard_ne _ _ hj)
    ⟨(fun _ hq => by cases hq), fun _ => ?_⟩ ⟨?_, h.sentRight⟩ ?_⟩
  · rw [← hmt]
    exact announced_heard_self _ _ _
  · have hsame : pkt.rt_gateway = p.ar_spa := hgateway.trans hmt
    rw [nextHopMac, hsame, ← hmt, if_neg hip]
    rw [hmt]
    exact announced_heard_self _ _ _
  · refine (h.balanced.heard p.ar_spa p.ar_sha).resume pkt p.ar_sha fun q => ?_
    have hcount := count_held_setEntry (f := fun mt =>
      { mt with mac := p.ar_sha, timestamp := s.stamp now, pkt := none }) hentry q
    rw [hpkt] at hcount
    exact hcount

/-- A reply for this node, with room for its sender. -/
theorem Inv.reply (h : Inv s) (now : Nat)
    (hroom : s.entry p.ar_spa = none → s.arpTable.length < ARP_TBL_MAX_ENTRYS) :
    ∃ t, (learned s now p).resumeSend p = .ok t ∧ Inv t := by
  cases hentry : s.entry p.ar_spa with
  | none =>
    have hnow := learned_new_entry hentry now
    rw [if_pos (hroom hentry)] at hnow
    exact ⟨_, resumeSend_idle hnow rfl, h.learn hentry now⟩
  | some mt =>
    cases hpkt : mt.pkt with
    | some pkt => exact h.resume hentry hpkt now
    | none =>
      refine ⟨_, resumeSend_idle (learned_known_entry hentry now) hpkt, ?_⟩
      rw [learned_known hentry]
      refine h.setMac hentry (fun hsome => ?_) _
      rw [hpkt] at hsome
      cases hsome

/-- No address gets into an entry with a packet. -/
theorem Inv.learn_free (h : Inv s) (now : Nat)
    (hfree : ∀ mt ∈ s.entry p.ar_spa, mt.pkt.isSome → p.ar_sha = ETHER_NULLADDR) :
    Inv (learned s now p) := by
  cases hentry : s.entry p.ar_spa with
  | none => exact h.learn hentry now
  | some mt =>
    rw [learned_known hentry]
    exact h.setMac hentry (hfree mt hentry) _

/-- **Receive.**. -/
theorem Inv.recv (h : Inv s) (hcovered : s.Covered (.recv now p)) :
    s.recv now p ≠ .error .null ∧ ∀ t, s.recv now p = .ok t → Inv t := by
  obtain ⟨hheld, hroom⟩ := hcovered
  have hok : ∀ u, Inv u → s.recv now p = .ok u →
      s.recv now p ≠ .error .null ∧ ∀ t, s.recv now p = .ok t → Inv t := by
    intro u hu hrecv
    rw [hrecv]
    refine ⟨(fun herror => by cases herror), fun t ht => ?_⟩
    obtain rfl := Except.ok.inj ht
    exact hu
  by_cases htpa : p.ar_tpa = s.ip_
  · have hrecv := recv_own htpa now
    by_cases hrequest : p.ar_op = ARPOP_REQUEST
    · rw [if_pos hrequest] at hrecv
      have hinv : Inv (learned s now p) := by
        refine h.learn_free now fun mt hmt hsome => ?_
        by_contra hsha
        exact (hheld mt hmt hsome hsha).2 hrequest
      refine hok ((learned s now p).arpReply p)
        ⟨hinv.balanced.reply _ _, hinv.sentRight, ?_, hinv.nodup⟩ hrecv
      exact fun mt hmt => (hinv.fits mt hmt).congr rfl
    · rw [if_neg hrequest] at hrecv
      by_cases hreply : p.ar_op = ARPOP_REPLY
      · rw [if_pos hreply] at hrecv
        obtain ⟨t, ht, hinv⟩ := h.reply now fun hentry => hroom hentry htpa hreply
        exact hok t hinv (hrecv.trans ht)
      · rw [if_neg hreply] at hrecv
        rw [hrecv]
        exact ⟨(fun herror => by cases herror), fun t ht => by cases ht⟩
  · refine hok _ ?_ (recv_other htpa)
    have hsame : (s.record (.heard p.ar_spa p.ar_sha)).entry p.ar_spa = s.entry p.ar_spa := rfl
    unfold freeArpUpdate
    rw [hsame]
    cases hentry : s.entry p.ar_spa with
    | none => exact h.heard hentry
    | some mt =>
      refine h.setMac hentry (fun hsome => ?_) _
      by_contra hsha
      exact htpa (hheld mt hentry hsome hsha).1

/-! ## The timer -/

/-- A flush announces nothing, and sends nothing. -/
theorem flushFrom_log (now : Nat) (table : List MapTbl) (log : List Event) :
    (∀ ip, announced (flushFrom now table log).2 ip = announced log ip) ∧
      (SentRight (flushFrom now table log).2 ↔ SentRight log) := by
  induction table generalizing log with
  | nil => exact ⟨fun _ => rfl, Iff.rfl⟩
  | cons mt rest ih =>
    unfold flushFrom
    by_cases hold : now ≥ mt.timestamp
    · rw [if_pos hold]
      obtain ⟨hannounced, hright⟩ := ih (freeHeld log mt.pkt)
      exact ⟨fun ip => (hannounced ip).trans (announced_freeHeld _ _ ip),
        hright.trans (sentRight_freeHeld _)⟩
    · rw [if_neg hold]
      exact ih log

/-- A flush only removes entries. -/
theorem flushFrom_sublist (now : Nat) (table : List MapTbl) (log : List Event) :
    (flushFrom now table log).1.Sublist table := by
  induction table generalizing log with
  | nil => exact .slnil
  | cons mt rest ih =>
    unfold flushFrom
    by_cases hold : now ≥ mt.timestamp
    · rw [if_pos hold]
      exact (ih _).cons mt
    · rw [if_neg hold]
      exact (ih log).cons_cons mt

/-- Beside packets that are held elsewhere. -/
theorem Balanced.flushFrom (now : Nat) (table : List MapTbl) {log : List Event} (others : List Packet)
    (h : Balanced log (others ++ table.filterMap MapTbl.pkt)) :
    Balanced (flushFrom now table log).2 (others ++ (flushFrom now table log).1.filterMap MapTbl.pkt) := by
  have hcons : ∀ (mt : MapTbl) (rest : List MapTbl),
      (mt :: rest).filterMap MapTbl.pkt = mt.pkt.toList ++ rest.filterMap MapTbl.pkt := by
    intro mt rest
    rw [List.filterMap_cons]
    cases mt.pkt <;> rfl
  induction table generalizing log others with
  | nil => exact h
  | cons mt rest ih =>
    rw [hcons] at h
    unfold State.flushFrom
    by_cases hold : now ≥ mt.timestamp
    · rw [if_pos hold]
      refine ih others (h.freeHeld mt.pkt fun q => ?_)
      simp only [List.count_append]
      omega
    · rw [if_neg hold, hcons, ← List.append_assoc]
      refine ih (others ++ mt.pkt.toList) ?_
      rwa [List.append_assoc]

/-- **Flush.**. -/
theorem Inv.flush (h : Inv s) (now : Nat) : Inv (s.flushArpTbl now) where
  balanced := Balanced.flushFrom now s.arpTable [] h.balanced
  sentRight := (flushFrom_log now s.arpTable s.log).2.2 h.sentRight
  fits mt hmt := (h.fits mt ((flushFrom_sublist _ _ _).mem hmt)).congr ((flushFrom_log _ _ _).1 _)
  nodup := h.nodup.sublist ((flushFrom_sublist _ _ _).map _)

/-! ## Runs -/

/-- **The invariant.** A covered step keeps it. -/
theorem Inv.step (h : Inv s) (hcovered : s.Covered i) :
    s.step i ≠ .error .null ∧ ∀ t, s.step i = .ok t → Inv t := by
  cases i with
  | send now pkt =>
    obtain ⟨u, hu, hinv⟩ := h.send hcovered
    refine ⟨fun herror => ?_, fun t ht => ?_⟩
    · cases hu.symm.trans herror
    · obtain rfl := Except.ok.inj (hu.symm.trans ht)
      exact hinv
  | recv now p => exact h.recv hcovered
  | flush now =>
    refine ⟨(fun herror => by cases herror), fun t ht => ?_⟩
    obtain rfl := Except.ok.inj ht
    exact h.flush now

/-- What finds the table full is not accounted for. -/
theorem not_accounted_full (h : Inv s) (hip : ¬ isBroadcast pkt.rt_gateway)
    (hentry : s.entry pkt.rt_gateway = none) (hfull : ¬ s.arpTable.length < ARP_TBL_MAX_ENTRYS) :
    ¬ s.Holds (.send now pkt) := by
  rintro ⟨-, hholds⟩
  have hsent := send_new hip hentry now
  rw [addArpTbl_full (s := s.record (.given pkt)) hfull] at hsent
  have hbalanced := (hholds _ hsent).balanced pkt
  have hbefore := h.balanced pkt
  simp only [State.arpRequest, State.record, List.filterMap_cons, Event.given?, Event.sent?, Event.freed?,
    List.count_cons_self] at hbalanced
  have hheld : (State.record (s.record (.given pkt)) (.request pkt.rt_gateway)).held = s.held := rfl
  simp only [State.record] at hheld
  rw [hheld] at hbalanced
  omega

/-- An address gets into an entry from which the packet is not sent. -/
theorem not_accounted_stranded {u : State} (now : Nat) (hentry : s.entry p.ar_spa = some mt)
    (hsome : mt.pkt.isSome) (hsha : p.ar_sha ≠ ETHER_NULLADDR) (hu : (learned s now p).arpTable = u.arpTable) : ¬ u.Accounted := by
  intro h
  have hmem : { mt with mac := p.ar_sha, timestamp := s.stamp now } ∈ u.arpTable := by
    rw [← hu]
    exact Keyed.mem_of_get (learned_known_entry hentry now)
  exact hsha (h.waiting _ hmem hsome)

/-- Where the account holds afterwards the step was covered. -/
theorem Inv.covered (h : Inv s) (hholds : s.Holds i) : s.Covered i := by
  cases i with
  | flush now => trivial
  | send now pkt =>
    intro hip hentry
    by_contra hfull
    exact not_accounted_full h hip hentry hfull hholds
  | recv now p =>
    obtain ⟨hnull, hok⟩ := hholds
    refine ⟨fun mt hentry hsome hsha => ?_, fun hentry htpa hreply => ?_⟩
    · by_contra hnot
      by_cases htpa : p.ar_tpa = s.ip_
      · have hrequest : p.ar_op = ARPOP_REQUEST := by
          by_contra hrequest
          exact hnot ⟨htpa, hrequest⟩
        have hrecv := recv_own htpa now
        rw [if_pos hrequest] at hrecv
        exact not_accounted_stranded now hentry hsome hsha (by rfl) (hok _ hrecv)
      · refine not_accounted_stranded now hentry hsome hsha ?_ (hok _ (recv_other htpa))
        rw [learned_known hentry]
        have hsame : (s.record (.heard p.ar_spa p.ar_sha)).entry p.ar_spa = some mt := hentry
        unfold freeArpUpdate
        rw [hsame]
        rfl
    · by_contra hfull
      have hrequest : p.ar_op ≠ ARPOP_REQUEST := by
        rw [hreply]
        decide
      have hrecv := recv_own htpa now
      have hnow := learned_new_entry hentry now
      rw [if_neg hfull] at hnow
      rw [if_neg hrequest, if_pos hreply, resumeSend_null hnow] at hrecv
      exact hnull hrecv

/-- **The packets.** Every step of a run leaves the packets accounted for and finds its entry exactly if
    every step meets the condition. -/
theorem run_accounted_iff (ip_ : Ip) (flushInterval_ : Nat) (inputs : List Input) :
    Run.Along State.step Holds (init ip_ flushInterval_) inputs ↔
      Run.Along State.step Covered (init ip_ flushInterval_) inputs :=
  Run.along_iff_along (I := Inv) (D := fun _ _ => True)
    (fun _ _ hs _ => ⟨hs.covered, fun hcovered =>
      ⟨(hs.step hcovered).1, fun t ht => ((hs.step hcovered).2 t ht).accounted⟩⟩)
    (fun _ _ _ hs _ hcovered hstep => (hs.step hcovered).2 _ hstep) (init_inv _ _) (Run.Along.true _ _)

/-- A packet waits for a host, which then sends a request of its own: the packet stays. -/
theorem request_strands : ∃ inputs : List Input, ¬ Run.Along State.step Holds (init 1 3) inputs := by
  refine ⟨[.send 0 ⟨0, 2⟩, .recv 1 ⟨ARPOP_REQUEST, 7, 2, 1⟩], fun h => ?_⟩
  obtain ⟨-, hholds⟩ := (h.2 _ rfl).1
  have hheld := (hholds _ rfl).waiting ⟨2, 7, 4, some ⟨0, 2⟩⟩ (by decide) rfl
  exact absurd hheld (by decide)

end Arp
