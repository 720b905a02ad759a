import Nctuns.Lib.Outcome
import Nctuns.Ps.Drr
import Mathlib.Data.List.Chain
import Mathlib.Data.List.Find
import Mathlib.Data.List.Perm.Basic
import Mathlib.Data.List.Perm.Subperm
import Mathlib.Order.Basic
import Mathlib.Tactic.Tauto

/-!
# Proofs about deficit round robin

The packets of a flow that has a queue wait in the first queue of the list that they belong to. Those
of the other protocols belong to none and get a queue each, in the order of the list; the queue that
is served next is never behind one of these.
-/

namespace Ps

open PtrChain Outcome

variable {cfg : DrrConfig} {d d' : Drr} {l pre post : List Nat} {k rr : Nat} {p q : Packet}
  {t t' : DrrTbl}

/-! ### Flows -/

/-- A packet of a protocol that the search does not know. -/
def Packet.Other (p : Packet) : Prop := p.ip_p ≠ 6 ∧ p.ip_p ≠ 17 ∧ p.ip_p ≠ 1

/-- The packet belongs to the queue. -/
def DrrTbl.takes (t : DrrTbl) (cfg : DrrConfig) (p : Packet) : Bool := decide (t.Grades cfg p = 5)

/-- A packet without ports of its own is in no queue with ports. -/
theorem not_takes_of_other (h : p.Other) (t : DrrTbl) : t.takes cfg p = false := by
  obtain ⟨h6, h17, h1⟩ := h
  refine decide_eq_false ?_
  simp only [DrrTbl.Grades, if_neg h6, if_neg h17, if_neg h1]
  have ha := (t.s_ip == p.ip_src &&& cfg.s_mask_long).toNat_le
  have hb := (t.d_ip == p.ip_dst &&& cfg.d_mask_long).toNat_le
  have hc := (t.Protocol == p.ip_p || !cfg.protocol_care).toNat_le
  omega

theorem protocol_cases (p : Packet) :
    (p.ip_p = 6 ∨ p.ip_p = 17) ∧ p.ip_p ≠ 1 ∨ ¬ (p.ip_p = 6 ∨ p.ip_p = 17) ∧ p.ip_p = 1 ∨
      ¬ (p.ip_p = 6 ∨ p.ip_p = 17) ∧ p.ip_p ≠ 1 := by
  by_cases h1 : p.ip_p = 1
  · rw [h1]
    decide
  · by_cases hp : p.ip_p = 6 ∨ p.ip_p = 17
    · exact .inl ⟨hp, h1⟩
    · exact .inr (.inr ⟨hp, h1⟩)

/-- What the flow of an IP packet says about its headers. -/
structure SameFlow (cfg : DrrConfig) (p q : Packet) : Prop where
  ip_src : p.ip_src &&& cfg.s_mask_long = q.ip_src &&& cfg.s_mask_long
  ip_dst : p.ip_dst &&& cfg.d_mask_long = q.ip_dst &&& cfg.d_mask_long
  ip_p : cfg.protocol_care = true → p.ip_p = q.ip_p
  tcpudp : p.ip_p = 6 ∨ p.ip_p = 17 ↔ q.ip_p = 6 ∨ q.ip_p = 17
  icmp : p.ip_p = 1 ↔ q.ip_p = 1
  sport : p.ip_p = 6 ∨ p.ip_p = 17 → cfg.s_portn_care = true → p.sport = q.sport
  dport : p.ip_p = 6 ∨ p.ip_p = 17 → cfg.d_portn_care = true → p.dport = q.dport

/-- Packets of one flow agree in what the queues compare. -/
theorem sameFlow (hp : p.ether_type = 0x0800) (hq : q.ether_type = 0x0800)
    (h : p.flow cfg = q.flow cfg) : SameFlow cfg p q := by
  have h1 : ¬ (0x0800 : UInt16) = 0x0001 := by decide
  have h2 : ¬ (0x0800 : UInt16) ≠ 0x0800 := by decide
  simp only [Packet.flow, hp, hq, if_neg h1, if_neg h2, Flow.ip.injEq] at h
  obtain ⟨hs, hd, hproto, hports⟩ := h
  have hicmp : ¬ ((1 : UInt8) = 6 ∨ (1 : UInt8) = 17) := by decide
  have hcare : cfg.protocol_care = true → p.ip_p = q.ip_p := by
    intro hc
    simpa [hc] using hproto
  rcases protocol_cases p with ⟨hp, hp1⟩ | ⟨hp, hp1⟩ | ⟨hp, hp1⟩ <;>
    rcases protocol_cases q with ⟨hq, hq1⟩ | ⟨hq, hq1⟩ | ⟨hq, hq1⟩ <;>
    simp only [hp, hq, hp1, hq1, hicmp, if_true, if_false, reduceCtorEq, Ports.ports.injEq] at hports
  · obtain ⟨hsp, hdp⟩ := hports
    refine ⟨hs, hd, hcare, ⟨fun _ => hq, fun _ => hp⟩, ⟨fun h => absurd h hp1, fun h => absurd h hq1⟩,
      fun _ hc => ?_, fun _ hc => ?_⟩
    · simpa [hc] using hsp
    · simpa [hc] using hdp
  · exact ⟨hs, hd, hcare, ⟨fun h => absurd h hp, fun h => absurd h hq⟩, ⟨fun _ => hq1, fun _ => hp1⟩,
      fun h => absurd h hp, fun h => absurd h hp⟩
  · exact ⟨hs, hd, hcare, ⟨fun h => absurd h hp, fun h => absurd h hq⟩,
      ⟨fun h => absurd h hp1, fun h => absurd h hq1⟩, fun h => absurd h hp, fun h => absurd h hp⟩

/-- Packets of one flow belong to the same queues. -/
theorem takes_congr (hp : p.ether_type = 0x0800) (hq : q.ether_type = 0x0800)
    (h : p.flow cfg = q.flow cfg) (t : DrrTbl) : t.takes cfg p = t.takes cfg q := by
  have hsame := sameFlow hp hq h
  have hproto : (t.Protocol == p.ip_p || !cfg.protocol_care) =
      (t.Protocol == q.ip_p || !cfg.protocol_care) := by
    cases hc : cfg.protocol_care with
    | false => simp
    | true => rw [hsame.ip_p hc]
  have hgrades : t.Grades cfg p = t.Grades cfg q := by
    unfold DrrTbl.Grades
    rw [hsame.ip_src, hsame.ip_dst, hproto]
    rcases protocol_cases p with ⟨hp, -⟩ | ⟨hp, hp1⟩ | ⟨hp, hp1⟩
    · have hs : (t.s_portn == p.sport.toNat || !cfg.s_portn_care) =
          (t.s_portn == q.sport.toNat || !cfg.s_portn_care) := by
        cases hc : cfg.s_portn_care with
        | false => simp
        | true => rw [hsame.sport hp hc]
      have hd : (t.d_portn == p.dport.toNat || !cfg.d_portn_care) =
          (t.d_portn == q.dport.toNat || !cfg.d_portn_care) := by
        cases hc : cfg.d_portn_care with
        | false => simp
        | true => rw [hsame.dport hp hc]
      rw [hs, hd]
      rcases hp with hp | hp <;> rcases hsame.tcpudp.1 (by simp [hp]) with hq | hq <;> simp [hp, hq]
    · obtain ⟨hp6, hp17⟩ := not_or.1 hp
      simp [hp1, hsame.icmp.1 hp1]
    · obtain ⟨hp6, hp17⟩ := not_or.1 hp
      obtain ⟨hq6, hq17⟩ := not_or.1 (mt hsame.tcpudp.2 hp)
      simp only [if_neg hp6, if_neg hp17, if_neg hp1, if_neg hq6, if_neg hq17,
        if_neg (mt hsame.icmp.2 hp1)]
  rw [DrrTbl.takes, DrrTbl.takes, hgrades]

theorem other_congr (hp : p.ether_type = 0x0800) (hq : q.ether_type = 0x0800)
    (h : p.flow cfg = q.flow cfg) : p.Other ↔ q.Other := by
  have hsame := sameFlow hp hq h
  have htu := hsame.tcpudp
  have hicmp := hsame.icmp
  unfold Packet.Other
  tauto

/-- A packet belongs to the queue that was made for it. -/
theorem newTbl_takes (h : ¬ p.Other) : (Drr.newTbl cfg k p).takes cfg p = true := by
  refine decide_eq_true ?_
  by_cases h6 : p.ip_p = 6
  · simp [DrrTbl.Grades, Drr.newTbl, h6]
  · by_cases h17 : p.ip_p = 17
    · simp [DrrTbl.Grades, Drr.newTbl, h17]
    · by_cases h1 : p.ip_p = 1
      · simp [DrrTbl.Grades, Drr.newTbl, h1]
      · exact absurd ⟨h6, h17, h1⟩ h

/-! ### The queues -/

/-- The first queue of the list that the packet belongs to. -/
def Drr.home (d : Drr) (cfg : DrrConfig) (l : List Nat) (p : Packet) : Option Nat :=
  l.find? fun k => (d.tbl k).takes cfg p

/-- A flow queue in the list `l`. -/
structure Drr.Healthy (d : Drr) (cfg : DrrConfig) (l : List Nat) (k : Nat) : Prop where
  Counter : (d.tbl k).Counter = (d.tbl k).packets.length
  Timer : (d.tbl k).packets ≠ [] → (d.tbl k).Timer = 0
  ip : ∀ p ∈ (d.tbl k).packets, p.ether_type = 0x0800
  home : ∀ p ∈ (d.tbl k).packets, ¬ p.Other → d.home cfg l p = some k
  tail : ∀ p ∈ (d.tbl k).packets.tail, ¬ p.Other

/-- The queue that is served next has packets, and none before it has one of another protocol. -/
def Drr.Turn (d : Drr) (l : List Nat) : Prop :=
  ∃ pre rr post, l = pre ++ rr :: post ∧ d.drrTableRR = some rr ∧ (d.tbl rr).packets ≠ [] ∧
    ∀ k ∈ pre, ∀ p ∈ (d.tbl k).packets, ¬ p.Other

/-- The list `l` of queues, with their counts and the queue in turn. -/
structure Drr.Queued (d : Drr) (cfg : DrrConfig) (l : List Nat) : Prop where
  list : IsList d.Next d.drrTableAll.First d.drrTableAll.Tail l
  lt : ∀ k ∈ l, k < d.allocated
  count : d.drrTableAll.Counter = l.length
  healthy : ∀ k ∈ l, d.Healthy cfg l k
  total : d.DrrPacketTotal = (d.flowPackets l).length
  turn : d.DrrPacketTotal > 0 → d.Turn l
  spanning : d.SpanningTbl.Counter = 0
  special : d.SpecialTbl.Counter = 0

/-- There are no queues. -/
theorem init_queued : (Drr.init t).Queued cfg [] where
  list := ⟨rfl, rfl⟩
  lt := by simp
  count := rfl
  healthy := by simp
  total := rfl
  turn h := absurd h (by simp [Drr.init])
  spanning := rfl
  special := rfl

/-- The queues are allocated. -/
theorem Drr.Queued.length_le (h : d.Queued cfg l) : l.length ≤ d.allocated := by
  have hsub : l.Subperm (List.range d.allocated) :=
    List.subperm_of_subset h.list.chain.nodup fun k hk => List.mem_range.2 (h.lt k hk)
  simpa using hsub.length_le

theorem Drr.Queued.queues_eq (h : d.Queued cfg l) : d.queues = l := h.list.chain.walk h.length_le

theorem mem_flowPackets : p ∈ d.flowPackets l ↔ ∃ k ∈ l, p ∈ (d.tbl k).packets := List.mem_flatMap

@[simp] theorem flowPackets_append :
    d.flowPackets (pre ++ post) = d.flowPackets pre ++ d.flowPackets post := List.flatMap_append

@[simp] theorem flowPackets_cons :
    d.flowPackets (k :: post) = (d.tbl k).packets ++ d.flowPackets post := List.flatMap_cons

/-- Queues with the same packets. -/
theorem flowPackets_congr (h : ∀ k ∈ l, (d'.tbl k).packets = (d.tbl k).packets) :
    d'.flowPackets l = d.flowPackets l := by
  unfold Drr.flowPackets
  rw [List.flatMap_def, List.flatMap_def, List.map_congr_left h]

@[simp] theorem setTbl_self (d : Drr) (k : Nat) (t : DrrTbl) : (d.setTbl k t).tbl k = t := by
  simp [Drr.setTbl]

theorem setTbl_of_ne {j : Nat} (h : j ≠ k) : (d.setTbl k t).tbl j = d.tbl j := by
  simp [Drr.setTbl, h]

/-- One queue is written. -/
theorem flowPackets_setTbl (hl : (pre ++ k :: post).Nodup) :
    (d.setTbl k t).flowPackets (pre ++ k :: post) =
      d.flowPackets pre ++ (t.packets ++ d.flowPackets post) := by
  obtain ⟨-, hpost, hdisj⟩ := List.nodup_append.1 hl
  have hk : ∀ j, j ≠ k → ((d.setTbl k t).tbl j).packets = (d.tbl j).packets := by
    intro j hj
    rw [setTbl_of_ne hj]
  rw [flowPackets_append, flowPackets_cons,
    flowPackets_congr fun j hj => hk j (hdisj j hj k List.mem_cons_self),
    flowPackets_congr fun j hj => hk j (ne_of_mem_of_not_mem hj (List.nodup_cons.1 hpost).1)]
  rw [setTbl_self]

/-- A queue changed that takes the same packets. -/
theorem home_setTbl (ht : ∀ p, t.takes cfg p = (d.tbl k).takes cfg p) (l : List Nat) (p : Packet) :
    (d.setTbl k t).home cfg l p = d.home cfg l p := by
  unfold Drr.home
  congr 1
  funext j
  by_cases hj : j = k
  · subst hj
    rw [setTbl_self, ht]
  · rw [setTbl_of_ne hj]

/-- The packets of a queue changed. -/
theorem Drr.Queued.set {n : Int} {r : Option Nat} {v : Bool} (h : d.Queued cfg l)
    (ht : ∀ p, t.takes cfg p = (d.tbl k).takes cfg p) (hk : (d.setTbl k t).Healthy cfg l k)
    (hn : n = ((d.setTbl k t).flowPackets l).length)
    (hturn : n > 0 → Drr.Turn { d.setTbl k t with drrTableRR := r } l) :
    Drr.Queued { d.setTbl k t with DrrPacketTotal := n, drrTableRR := r, drrTableRR_var := v }
      cfg l where
  list := h.list
  lt := h.lt
  count := h.count
  healthy j hj := by
    by_cases hjk : j = k
    · subst hjk
      exact ⟨hk.Counter, hk.Timer, hk.ip, hk.home, hk.tail⟩
    · have hold := h.healthy j hj
      have htbl : (d.setTbl k t).tbl j = d.tbl j := setTbl_of_ne hjk
      refine ⟨htbl ▸ hold.Counter, htbl ▸ hold.Timer, htbl ▸ hold.ip, fun p hp ho => ?_,
        htbl ▸ hold.tail⟩
      show (d.setTbl k t).home cfg l p = some j
      rw [home_setTbl ht]
      exact hold.home p (htbl ▸ hp) ho
  total := hn
  turn := hturn
  spanning := h.spanning
  special := h.special

/-- Packets of the flow that a queue gives out are in no queue before it. -/
theorem Drr.Queued.first_of_flow (h : d.Queued cfg l) (hl : l = pre ++ rr :: post)
    (hpre : ∀ k ∈ pre, ∀ p ∈ (d.tbl k).packets, ¬ p.Other) (hp : p ∈ (d.tbl rr).packets)
    (hq : q ∈ d.flowPackets pre) : q.flow cfg ≠ p.flow cfg := by
  intro hflow
  obtain ⟨k, hk, hqk⟩ := mem_flowPackets.1 hq
  have hkl : k ∈ l := by simp [hl, hk]
  have hrr : rr ∈ l := by simp [hl]
  have hpip := (h.healthy rr hrr).ip p hp
  have hqip := (h.healthy k hkl).ip q hqk
  have hqo := hpre k hk q hqk
  have hhome := (h.healthy rr hrr).home p hp (mt (other_congr hqip hpip hflow).2 hqo)
  have hhome' := (h.healthy k hkl).home q hqk hqo
  have hsame : d.home cfg l q = d.home cfg l p := by
    unfold Drr.home
    congr 1
    exact funext fun k => takes_congr hqip hpip hflow _
  have hkr : k = rr := Option.some.inj (hhome'.symm.trans (hsame.trans hhome))
  have hnd := h.list.chain.nodup
  rw [hl] at hnd
  exact (List.nodup_append.1 hnd).2.2 k hk rr List.mem_cons_self hkr

/-! ### A packet put into a queue -/

/-- The search finds the queue of the packet. -/
theorem search_spec (h : d.Queued cfg l) (p : Packet) : d.search cfg p = .ok (d.home cfg l p) := by
  unfold Drr.search Drr.home
  rcases h.list.chain.find (fun k => (d.tbl k).takes cfg p) none h.length_le with
    ⟨hf, hl⟩ | ⟨pre, k, post, rfl, hpre, hk, hf⟩
  · have hfind : l.find? (fun k => (d.tbl k).takes cfg p) = none :=
      List.find?_eq_none.2 fun k hk => by simp [hl k hk]
    rw [hfind]
    unfold DrrTbl.takes at hf
    rw [hf]
    rfl
  · have hfind : (pre ++ k :: post).find? (fun k => (d.tbl k).takes cfg p) = some k :=
      List.find?_eq_some_iff_append.2 ⟨hk, pre, post, rfl, fun j hj => by simp [hpre j hj]⟩
    rw [hfind]
    unfold DrrTbl.takes at hf
    rw [hf]
    rfl

/-- What `send` leaves in the queues: the packet is behind the others of its flow. -/
structure Takes (cfg : DrrConfig) (d d' : Drr) (l l' : List Nat) (p : Packet) : Prop where
  queued : d'.Queued cfg l'
  perm : (d'.flowPackets l').Perm (d.flowPackets l ++ [p])
  order : ∀ f, (d'.flowPackets l').filter (fun q => decide (q.flow cfg = f)) =
    (d.flowPackets l ++ [p]).filter fun q => decide (q.flow cfg = f)
  spanning : d'.SpanningTbl = d.SpanningTbl
  special : d'.SpecialTbl = d.SpecialTbl

/-- The only packet there is makes its queue the next to serve. -/
theorem turn_of_only {t' : Drr} (hl : l = pre ++ k :: post) (hrr : t'.drrTableRR = some k)
    (hk : (t'.tbl k).packets ≠ []) (hone : (t'.flowPackets l).length = 1) : t'.Turn l := by
  refine ⟨pre, k, post, hl, hrr, hk, fun j hj p hp => ?_⟩
  have hpre : p ∈ t'.flowPackets pre := mem_flowPackets.2 ⟨j, hj, hp⟩
  have hpos := List.length_pos_of_mem hpre
  have hkpos := List.length_pos_iff.2 hk
  rw [hl, flowPackets_append, flowPackets_cons, List.length_append, List.length_append] at hone
  omega

/-- A queue takes the same packets as before. -/
theorem append_takes (t : DrrTbl) (p q : Packet) : (t.append p).takes cfg q = t.takes cfg q := by
  unfold DrrTbl.append
  simp only
  split
  · rfl
  · split <;> rfl

/-- A packet put into a queue that counts its packets. -/
theorem append_eq (h : t.Counter = t.packets.length) (htimer : t.packets ≠ [] → t.Timer = 0) :
    (t.append p).packets = t.packets ++ [p] ∧ (t.append p).Counter = t.packets.length + 1 ∧
      (t.append p).Timer = 0 := by
  unfold DrrTbl.append
  simp only [h]
  cases hp : t.packets with
  | nil => simp
  | cons q qs =>
    have h1 : ¬ ((List.length (q :: qs) : Int) + 1 = 1) := by rw [List.length_cons]; omega
    have h2 : (List.length (q :: qs) : Int) + 1 > 1 := by rw [List.length_cons]; omega
    rw [if_neg h1, if_pos h2]
    exact ⟨rfl, rfl, htimer (by simp [hp])⟩

/-- The queue in turn is set at the first packet. -/
theorem point_eq (d : Drr) (k : Nat) :
    d.point k =
      { d with
        drrTableRR := if d.DrrPacketTotal = 1 then some k else d.drrTableRR
        drrTableRR_var := if d.DrrPacketTotal = 1 then true else d.drrTableRR_var } := by
  unfold Drr.point
  split <;> rfl

/-- A packet of a flow that has a queue waits there. -/
theorem Drr.Queued.home_eq {j : Nat} (h : d.Queued cfg l) (hip : p.ether_type = 0x0800)
    (ho : ¬ p.Other) (hk : d.home cfg l p = some k) (hj : j ∈ l) (hq : q ∈ (d.tbl j).packets)
    (hflow : q.flow cfg = p.flow cfg) : j = k := by
  have hqip := (h.healthy j hj).ip q hq
  have hsame : d.home cfg l q = d.home cfg l p := by
    unfold Drr.home
    congr 1
    exact funext fun k => takes_congr hqip hip hflow _
  have hhome := (h.healthy j hj).home q hq (mt (other_congr hqip hip hflow).1 ho)
  exact Option.some.inj (hhome.symm.trans (hsame.trans hk))

theorem not_other_of_takes (h : t.takes cfg p = true) : ¬ p.Other := fun ho => by
  rw [not_takes_of_other ho] at h
  cases h

/-- **A packet joins its queue.**. -/
theorem append_spec (h : d.Queued cfg l) (hip : p.ether_type = 0x0800)
    (hk : d.home cfg l p = some k) :
    Takes cfg d
      (Drr.point { d.setTbl k ((d.tbl k).append p) with DrrPacketTotal := d.DrrPacketTotal + 1 } k)
      l l p := by
  obtain ⟨htakes, pre, post, hl, -⟩ := List.find?_eq_some_iff_append.1 hk
  have ho := not_other_of_takes htakes
  have hkl : k ∈ l := by simp [hl]
  have hnd := h.list.chain.nodup
  have hold := h.healthy k hkl
  obtain ⟨hpackets, hCounter, hTimer⟩ := @append_eq p _ hold.Counter hold.Timer
  have hfp : (d.setTbl k ((d.tbl k).append p)).flowPackets l =
      d.flowPackets pre ++ ((d.tbl k).packets ++ [p] ++ d.flowPackets post) := by
    rw [hl] at hnd ⊢
    rw [flowPackets_setTbl hnd, hpackets]
  have hfp' : d.flowPackets l =
      d.flowPackets pre ++ ((d.tbl k).packets ++ d.flowPackets post) := by
    rw [hl, flowPackets_append, flowPackets_cons]
  have hlen : ((d.setTbl k ((d.tbl k).append p)).flowPackets l).length =
      (d.flowPackets l).length + 1 := by
    rw [hfp, hfp']
    simp only [List.length_append, List.length_singleton]
    omega
  have hnew : ∀ q ∈ (d.tbl k).packets ++ [p], q ∈ (d.tbl k).packets ∨ q = p := by
    intro q hq
    simpa using hq
  rw [point_eq]
  refine ⟨h.set (append_takes _ p) ⟨?_, fun _ => ?_, fun q hq => ?_, fun q hq hqo => ?_,
    fun q hq => ?_⟩ ?_ fun hn => ?_, ?_, fun f => ?_, rfl, rfl⟩
  · rw [setTbl_self, hCounter, hpackets]
    simp
  · rw [setTbl_self, hTimer]
  · rw [setTbl_self, hpackets] at hq
    rcases hnew q hq with hq | rfl
    · exact hold.ip q hq
    · exact hip
  · rw [setTbl_self, hpackets] at hq
    rw [home_setTbl (append_takes _ p)]
    rcases hnew q hq with hq | rfl
    · exact hold.home q hq hqo
    · exact hk
  · rw [setTbl_self, hpackets] at hq
    cases hqs : (d.tbl k).packets with
    | nil => simp [hqs] at hq
    | cons a as =>
      rw [hqs, List.cons_append, List.tail_cons, List.mem_append, List.mem_singleton] at hq
      rcases hq with hq | rfl
      · exact hold.tail q (by simpa [hqs] using hq)
      · exact ho
  · show d.DrrPacketTotal + 1 = _
    rw [hlen, h.total]
    rfl
  · dsimp only at hn ⊢
    by_cases hone : d.DrrPacketTotal + 1 = 1
    · rw [if_pos hone]
      refine turn_of_only hl rfl ?_ ?_
      · rw [setTbl_self, hpackets]
        simp
      · show ((d.setTbl k ((d.tbl k).append p)).flowPackets l).length = 1
        rw [hlen]
        have := h.total
        omega
    · rw [if_neg hone]
      obtain ⟨pre', rr, post', hl', hrr, hbusy, hpre'⟩ := h.turn (by omega)
      refine ⟨pre', rr, post', hl', hrr, ?_, fun j hj q hq => ?_⟩
      · by_cases hrk : rr = k
        · subst hrk
          rw [setTbl_self, hpackets]
          simp
        · rw [setTbl_of_ne hrk]
          exact hbusy
      · by_cases hjk : j = k
        · subst hjk
          rw [setTbl_self, hpackets] at hq
          rcases hnew q hq with hq | rfl
          · exact hpre' j hj q hq
          · exact ho
        · rw [setTbl_of_ne hjk] at hq
          exact hpre' j hj q hq
  · show ((d.setTbl k ((d.tbl k).append p)).flowPackets l).Perm _
    rw [hfp, hfp', List.append_assoc, List.append_assoc]
    refine List.Perm.append_left _ ?_
    rw [List.append_assoc]
    exact List.Perm.append_left _ (List.perm_append_comm)
  · show ((d.setTbl k ((d.tbl k).append p)).flowPackets l).filter _ = _
    rw [hfp, hfp']
    by_cases hf : p.flow cfg = f
    · have hpost : (d.flowPackets post).filter (fun q => decide (q.flow cfg = f)) = [] := by
        refine List.filter_eq_nil_iff.2 fun q hq hqf => ?_
        obtain ⟨j, hj, hqj⟩ := mem_flowPackets.1 hq
        have hjk := h.home_eq hip ho hk (by simp [hl, hj]) hqj ((of_decide_eq_true hqf).trans hf.symm)
        rw [hl] at hnd
        exact (List.nodup_cons.1 (List.nodup_append.1 hnd).2.1).1 (hjk ▸ hj)
      simp only [List.filter_append, hpost, List.append_nil]
      rw [List.append_assoc]
    · simp [List.filter_append, hf]

/-- A queue that has not been touched. -/
theorem Drr.Healthy.keep {l' : List Nat} (h : d.Healthy cfg l k) (htbl : d'.tbl k = d.tbl k)
    (hhome : ∀ p, d.home cfg l p = some k → d'.home cfg l' p = some k) : d'.Healthy cfg l' k where
  Counter := htbl ▸ h.Counter
  Timer := htbl ▸ h.Timer
  ip := htbl ▸ h.ip
  home p hp ho := hhome p (h.home p (htbl ▸ hp) ho)
  tail := htbl ▸ h.tail

/-- A packet that belongs to no queue gets a new one, the last of the list. -/
theorem extend_spec (h : d.Queued cfg l) (hip : p.ether_type = 0x0800)
    (hk : d.home cfg l p = none) (hold : ∀ j ∈ l, d'.tbl j = d.tbl j)
    (hnew : d'.tbl d.allocated = Drr.newTbl cfg d.allocated p)
    (hlist : IsList d'.Next d'.drrTableAll.First d'.drrTableAll.Tail (l ++ [d.allocated]))
    (hcount : d'.drrTableAll.Counter = l.length + 1) (hall : d'.allocated = d.allocated + 1)
    (htotal : d'.DrrPacketTotal = d.DrrPacketTotal + 1) (hrr : d'.drrTableRR = d.drrTableRR)
    (hspanning : d'.SpanningTbl = d.SpanningTbl) (hspecial : d'.SpecialTbl = d.SpecialTbl) :
    Takes cfg d (d'.point d.allocated) l (l ++ [d.allocated]) p := by
  have hpackets : (d'.tbl d.allocated).packets = [p] := by rw [hnew]; rfl
  have hfp : d'.flowPackets (l ++ [d.allocated]) = d.flowPackets l ++ [p] := by
    rw [flowPackets_append, flowPackets_congr fun j hj => congrArg _ (hold j hj), flowPackets_cons,
      hpackets]
    rfl
  have hhome : ∀ q, d'.home cfg (l ++ [d.allocated]) q =
      (d.home cfg l q).or ([d.allocated].find? fun _ =>
        (Drr.newTbl cfg d.allocated p).takes cfg q) := fun q => by
    have hfind : l.find? (fun j => (d'.tbl j).takes cfg q) =
        l.find? fun j => (d.tbl j).takes cfg q :=
      List.find?_congr fun j hj => by rw [hold j hj]
    unfold Drr.home
    rw [List.find?_append, hfind]
    simp [List.find?_cons, hnew]
  have hhealthy : ∀ j ∈ l ++ [d.allocated], d'.Healthy cfg (l ++ [d.allocated]) j := by
    intro j hj
    rcases List.mem_append.1 hj with hj | hj
    · refine (h.healthy j hj).keep (hold j hj) fun q hq => ?_
      rw [hhome, hq]
      rfl
    · obtain rfl := List.mem_singleton.1 hj
      refine ⟨?_, fun _ => ?_, fun q hq => ?_, fun q hq ho => ?_, fun q hq => ?_⟩
      · rw [hpackets, hnew]
        rfl
      · rw [hnew]
        rfl
      · rw [hpackets, List.mem_singleton] at hq
        rw [hq, hip]
      · rw [hpackets, List.mem_singleton] at hq
        subst hq
        rw [hhome, hk]
        simp [newTbl_takes ho]
      · rw [hpackets] at hq
        cases hq
  have hturn : (d'.point d.allocated).Turn (l ++ [d.allocated]) := by
    rw [point_eq]
    by_cases hone : d'.DrrPacketTotal = 1
    · refine turn_of_only rfl (if_pos hone) ?_ ?_
      · show (d'.tbl d.allocated).packets ≠ []
        simp [hpackets]
      · show (d'.flowPackets _).length = 1
        have hlen := h.total
        rw [hfp, List.length_append, List.length_singleton]
        omega
    · have hlen := h.total
      obtain ⟨pre, rr, post, rfl, hrr', hbusy, hpre⟩ := h.turn (by omega)
      refine ⟨pre, rr, post ++ [d.allocated], by simp, ?_, ?_, fun j hj q hq => ?_⟩
      · exact (if_neg hone).trans (hrr.trans hrr')
      · show (d'.tbl rr).packets ≠ []
        rwa [hold rr (by simp)]
      · have hq : q ∈ (d'.tbl j).packets := hq
        rw [hold j (by simp [hj])] at hq
        exact hpre j hj q hq
  have hlt : ∀ j ∈ l ++ [d.allocated], j < d.allocated + 1 := by
    intro j hj
    rcases List.mem_append.1 hj with hj | hj
    · exact Nat.lt_succ_of_lt (h.lt j hj)
    · exact List.mem_singleton.1 hj ▸ Nat.lt_succ_self _
  rw [point_eq] at hturn ⊢
  refine ⟨⟨hlist, fun j hj => ?_, ?_, fun j hj => ?_, ?_, fun _ => hturn, ?_, ?_⟩,
    List.Perm.of_eq hfp, fun f => congrArg _ hfp, hspanning, hspecial⟩
  · exact hall ▸ hlt j hj
  · simp [hcount]
  · exact (hhealthy j hj).keep rfl fun _ => id
  · show d'.DrrPacketTotal = (d'.flowPackets _).length
    rw [hfp, htotal, h.total]
    simp
  · exact hspanning ▸ h.spanning
  · exact hspecial ▸ h.special

/-- **A packet gets a new queue.**. -/
theorem addTbl_spec (h : d.Queued cfg l) (hip : p.ether_type = 0x0800)
    (hk : d.home cfg l p = none) :
    ∃ d', d.addTbl cfg p = .ok d' ∧ Takes cfg d (d'.point d.allocated) l (l ++ [d.allocated]) p := by
  have hne : ∀ j ∈ l, j ≠ d.allocated := fun j hj => (h.lt j hj).ne
  have hold : ∀ j ∈ l, (d.setTbl d.allocated (Drr.newTbl cfg d.allocated p)).tbl j = d.tbl j :=
    fun j hj => setTbl_of_ne (hne j hj)
  have hlinks : IsList (Function.update d.Next d.allocated none) d.drrTableAll.First
      d.drrTableAll.Tail l := h.list.congr fun j hj => Function.update_of_ne (hne j hj) _ _
  unfold Drr.addTbl
  simp only
  rcases List.eq_nil_or_concat l with rfl | ⟨l', x, hl⟩
  · have hone : d.drrTableAll.Counter + 1 = 1 := by simp [h.count]
    rw [if_pos hone]
    refine ⟨_, rfl, extend_spec h hip hk (by simp) (setTbl_self _ _ _) ?_ ?_ rfl rfl rfl rfl rfl⟩
    · exact ⟨⟨rfl, by simp⟩, rfl⟩
    · simpa using hone
  · rw [List.concat_eq_append] at hl
    have hcount : d.drrTableAll.Counter = l.length := h.count
    have hpos : 0 < l.length := by simp [hl]
    have hone : ¬ d.drrTableAll.Counter + 1 = 1 := by omega
    have hmore : d.drrTableAll.Counter + 1 > 1 := by omega
    have htail : d.drrTableAll.Tail = some x := by simp [h.list.tail, hl]
    rw [if_neg hone, if_pos hmore, htail]
    refine ⟨_, rfl, extend_spec h hip hk hold (setTbl_self _ _ _) ?_ ?_ rfl rfl rfl rfl rfl⟩
    · exact (htail ▸ hlinks).snoc (fun hm => hne _ hm rfl) (Function.update_self _ _ _)
    · exact congrArg (· + 1) hcount

/-- `send` of an IP packet to a full module. -/
theorem enque_spec (h : d.Queued cfg l) (hip : p.ether_type = 0x0800) :
    d.enque cfg p = .ok (d, some .freed) ∨
      ∃ d' l', d.enque cfg p = .ok (d', none) ∧ Takes cfg d d' l l' p := by
  unfold Drr.enque
  split
  · exact .inl rfl
  · rw [search_spec h p, bind_ok]
    cases hk : d.home cfg l p with
    | none =>
      obtain ⟨d', hadd, htakes⟩ := addTbl_spec h hip hk
      refine .inr ⟨_, _, ?_, htakes⟩
      simp only [hadd, bind_ok]
    | some k =>
      simp only
      split
      · exact .inl rfl
      · exact .inr ⟨_, _, rfl, append_spec h hip hk⟩

/-! ### A packet taken out of a queue -/

/-- The search for a busy queue ends at the first one. -/
theorem seekBusy_found {a b : List Nat} {s : Option Nat} {n : Nat}
    (h : IsChain d.Next s (a ++ k :: b)) (ha : ∀ j ∈ a, (d.tbl j).Counter ≤ 0)
    (hk : (d.tbl k).Counter > 0) (hn : a.length < n) : d.seekBusy n s = .ok k := by
  induction a generalizing s n with
  | nil =>
    obtain ⟨rfl, -⟩ := h
    obtain ⟨n, rfl⟩ : ∃ m, n = m + 1 := ⟨n - 1, by omega⟩
    rw [Drr.seekBusy, if_neg (by omega)]
  | cons j a ih =>
    obtain ⟨rfl, h⟩ := h
    obtain ⟨n, rfl⟩ : ∃ m, n = m + 1 := ⟨n - 1, by omega⟩
    have hnext : ∃ i, d.Next j = some i := by
      cases a with
      | nil => exact ⟨k, h.1⟩
      | cons i a => exact ⟨i, h.1⟩
    obtain ⟨i, hi⟩ := hnext
    rw [Drr.seekBusy, if_pos (ha j List.mem_cons_self), hi]
    simp only
    rw [hi] at h
    exact ih h (fun j hj => ha j (List.mem_cons_of_mem _ hj)) (by simp at hn; omega)

/-- The search passes idle queues. -/
theorem seekBusy_idle {a : List Nat} {s : Option Nat} (h : IsChain d.Next s a) (hne : a ≠ [])
    (ha : ∀ j ∈ a, (d.tbl j).Counter ≤ 0) (n : Nat) :
    d.seekBusy (n + a.length) s = d.seekBusy n d.drrTableAll.First := by
  induction a generalizing s with
  | nil => exact absurd rfl hne
  | cons j a ih =>
    obtain ⟨rfl, h⟩ := h
    rw [List.length_cons, ← Nat.add_assoc, Drr.seekBusy, if_pos (ha j List.mem_cons_self)]
    cases a with
    | nil =>
      rw [show d.Next j = none from h]
      rfl
    | cons i a =>
      have hi : d.Next j = some i := h.1
      rw [hi] at h ⊢
      exact ih h (by simp) fun j hj => ha j (List.mem_cons_of_mem _ hj)

/-- `drrTableRR` goes on to the next queue with packets. -/
theorem moveRR_spec (h : IsList d.Next d.drrTableAll.First d.drrTableAll.Tail l)
    (hlen : l.length ≤ d.allocated)
    (hcount : ∀ k ∈ l, (d.tbl k).Counter = (d.tbl k).packets.length)
    (htotal : d.DrrPacketTotal = (d.flowPackets l).length) (hl : l = pre ++ rr :: post)
    (hpre : ∀ k ∈ pre, ∀ p ∈ (d.tbl k).packets, ¬ p.Other)
    (hrr : ∀ p ∈ (d.tbl rr).packets, ¬ p.Other) :
    ∃ r v, d.moveRR rr = .ok { d with drrTableRR := r, drrTableRR_var := v } ∧
      (d.DrrPacketTotal > 0 → Drr.Turn { d with drrTableRR := r } l) := by
  unfold Drr.moveRR
  split
  · rename_i hpos
    have hbusy : ∀ k ∈ l, (d.tbl k).packets ≠ [] → (d.tbl k).Counter > 0 := by
      intro k hk hne
      have := List.length_pos_iff.2 hne
      rw [hcount k hk]
      omega
    have hidle : ∀ k ∈ l, (d.tbl k).packets = [] → (d.tbl k).Counter ≤ 0 := by
      intro k hk he
      rw [hcount k hk, he]
      simp
    have hafter : IsChain d.Next (d.Next rr) post := by
      have hchain := h.chain
      rw [hl] at hchain
      exact hchain.after
    have hpost : post.length < l.length := by
      rw [hl, List.length_append, List.length_cons]
      omega
    -- the first queue with packets behind `rr`, or of the whole list
    cases hfind : post.find? fun k => decide ((d.tbl k).packets ≠ []) with
    | some k =>
      obtain ⟨hk, a, b, rfl, ha⟩ := List.find?_eq_some_iff_append.1 hfind
      have hkne : (d.tbl k).packets ≠ [] := of_decide_eq_true hk
      have ha : ∀ j ∈ a, (d.tbl j).packets = [] := by
        intro j hj
        simpa using ha j hj
      have hseek : d.seekBusy (2 * d.allocated) (d.Next rr) = .ok k := by
        refine seekBusy_found hafter (fun j hj => hidle j (by simp [hl, hj]) (ha j hj))
          (hbusy k (by simp [hl]) hkne) ?_
        rw [List.length_append] at hpost
        omega
      have hnext : ∃ i, d.Next rr = some i := by
        cases a with
        | nil => exact ⟨k, hafter.1⟩
        | cons i a => exact ⟨i, hafter.1⟩
      obtain ⟨i, hi⟩ := hnext
      rw [hi] at hseek ⊢
      simp only [hseek, bind_ok]
      refine ⟨some k, true, rfl, fun _ => ⟨pre ++ rr :: a, k, b, by simp [hl], rfl, hkne, ?_⟩⟩
      intro j hj q hq
      rcases List.mem_append.1 hj with hj | hj
      · exact hpre j hj q hq
      · rcases List.mem_cons.1 hj with rfl | hj
        · exact hrr q hq
        · rw [show (d.tbl j).packets = [] from ha j hj] at hq
          cases hq
    | none =>
      have hpostidle : ∀ j ∈ post, (d.tbl j).Counter ≤ 0 := fun j hj =>
        hidle j (by simp [hl, hj]) (by simpa using List.find?_eq_none.1 hfind j hj)
      have hfp : d.flowPackets l ≠ [] := List.length_pos_iff.1 (by omega)
      obtain ⟨q, hq⟩ := List.exists_mem_of_ne_nil _ hfp
      obtain ⟨k₀, hk₀, hqk₀⟩ := mem_flowPackets.1 hq
      have hsome : (l.find? fun k => decide ((d.tbl k).packets ≠ [])).isSome := by
        rw [List.find?_isSome]
        exact ⟨k₀, hk₀, by simpa using List.ne_nil_of_mem hqk₀⟩
      obtain ⟨k, hfirst⟩ := Option.isSome_iff_exists.1 hsome
      obtain ⟨hk, a, b, hab, ha⟩ := List.find?_eq_some_iff_append.1 hfirst
      have hkne : (d.tbl k).packets ≠ [] := of_decide_eq_true hk
      have ha : ∀ j ∈ a, (d.tbl j).packets = [] := by
        intro j hj
        simpa using ha j hj
      have hseek : ∀ n, l.length ≤ n → d.seekBusy n d.drrTableAll.First = .ok k := by
        intro n hn
        have hchain := h.chain
        rw [hab] at hchain hn
        rw [List.length_append, List.length_cons] at hn
        exact seekBusy_found hchain (fun j hj => hidle j (by simp [hab, hj]) (ha j hj))
          (hbusy k (by simp [hab]) hkne) (by omega)
      refine ⟨some k, true, ?_, fun _ => ⟨a, k, b, hab, rfl, hkne, fun j hj q hq => ?_⟩⟩
      · cases hnext : d.Next rr with
        | none => simp only [hseek _ (show l.length ≤ 2 * d.allocated by omega), bind_ok]
        | some i =>
          rw [hnext] at hafter
          have hne : post ≠ [] := by
            rintro rfl
            cases hafter
          have hidle := seekBusy_idle hafter hne hpostidle (2 * d.allocated - post.length)
          rw [Nat.sub_add_cancel (by omega), hseek _ (by omega)] at hidle
          simp only [hidle, bind_ok]
      · rw [show (d.tbl j).packets = [] from ha j hj] at hq
        cases hq
  · rename_i hpos
    exact ⟨none, d.drrTableRR_var, rfl, fun h => absurd h hpos⟩

/-- What `intrq` leaves in the queues: it has handed out the first packet of its flow. -/
structure Gives (cfg : DrrConfig) (d d' : Drr) (l : List Nat) (pkt : Packet) : Prop where
  queued : d'.Queued cfg l
  perm : (pkt :: d'.flowPackets l).Perm (d.flowPackets l)
  order : ∀ f, (pkt :: d'.flowPackets l).filter (fun q => decide (q.flow cfg = f)) =
    (d.flowPackets l).filter fun q => decide (q.flow cfg = f)
  spanning : d'.SpanningTbl = d.SpanningTbl
  special : d'.SpecialTbl = d.SpecialTbl

/-- The first packet of a queue taken out. -/
theorem serve_eq {pkt : Packet} {rest : List Packet} (h : t.Counter = t.packets.length)
    (hp : t.packets = pkt :: rest) :
    ∃ x y, t.serve = .ok ({ t with
      packets := rest
      Counter := rest.length
      Priority := x
      pkt_length := y }, pkt) := by
  have hcount : t.Counter - 1 = rest.length := by
    rw [h, hp]
    simp
  unfold DrrTbl.serve DrrTbl.remove
  simp only [hp, hcount, bind_ok]
  cases rest with
  | nil => exact ⟨0, t.pkt_length, by simp⟩
  | cons q rest =>
    have hpos : ((q :: rest).length : Int) > 0 := by simp
    rw [if_pos hpos]
    exact ⟨_, _, rfl⟩

/-- The queue that is served next has given out its first packet. -/
theorem gives_spec {pkt : Packet} {rest : List Packet} {x y : Int} {r : Option Nat} {v : Bool}
    (h : d.Queued cfg l) (hl : l = pre ++ rr :: post)
    (hpre : ∀ k ∈ pre, ∀ p ∈ (d.tbl k).packets, ¬ p.Other)
    (hp : (d.tbl rr).packets = pkt :: rest)
    (ht : t = { d.tbl rr with
      packets := rest, Counter := rest.length, Priority := x, pkt_length := y })
    (hturn : d.DrrPacketTotal - 1 > 0 → Drr.Turn { d.setTbl rr t with drrTableRR := r } l) :
    Gives cfg d { d.setTbl rr t with
      DrrPacketTotal := d.DrrPacketTotal - 1
      drrTableRR := r
      drrTableRR_var := v } l pkt := by
  have hrr : rr ∈ l := by simp [hl]
  have hnd := h.list.chain.nodup
  have hold := h.healthy rr hrr
  have htakes : ∀ p, t.takes cfg p = (d.tbl rr).takes cfg p := by
    intro p
    rw [ht]
    rfl
  have hpackets : t.packets = rest := by rw [ht]
  have hsub : ∀ p ∈ rest, p ∈ (d.tbl rr).packets := by
    intro p hq
    rw [hp]
    exact List.mem_cons_of_mem _ hq
  have hfp : (d.setTbl rr t).flowPackets l =
      d.flowPackets pre ++ (rest ++ d.flowPackets post) := by
    rw [hl] at hnd ⊢
    rw [flowPackets_setTbl hnd, hpackets]
  have hfp' : d.flowPackets l = d.flowPackets pre ++ (pkt :: rest ++ d.flowPackets post) := by
    rw [hl, flowPackets_append, flowPackets_cons, hp]
  refine ⟨h.set htakes ⟨?_, fun hne => ?_, fun q hq => ?_, fun q hq ho => ?_, fun q hq => ?_⟩ ?_ hturn,
    ?_, fun f => ?_, rfl, rfl⟩
  · rw [setTbl_self, ht]
  · rw [setTbl_self, ht]
    exact hold.Timer (by simp [hp])
  · rw [setTbl_self, hpackets] at hq
    exact hold.ip q (hsub q hq)
  · rw [setTbl_self, hpackets] at hq
    rw [home_setTbl htakes]
    exact hold.home q (hsub q hq) ho
  · rw [setTbl_self, hpackets] at hq
    exact hold.tail q (by rw [hp]; exact List.mem_of_mem_tail hq)
  · rw [hfp, h.total, hfp']
    simp
    omega
  · show (pkt :: (d.setTbl rr t).flowPackets l).Perm _
    rw [hfp, hfp']
    exact List.perm_middle.symm
  · show (pkt :: (d.setTbl rr t).flowPackets l).filter _ = _
    rw [hfp, hfp']
    by_cases hf : pkt.flow cfg = f
    · have hnone : (d.flowPackets pre).filter (fun q => decide (q.flow cfg = f)) = [] := by
        refine List.filter_eq_nil_iff.2 fun q hq hqf => ?_
        exact h.first_of_flow hl hpre (show pkt ∈ (d.tbl rr).packets by simp [hp]) hq
          ((of_decide_eq_true hqf).trans hf.symm)
      simp [List.filter_append, hf, hnone]
    · simp [List.filter_append, hf]

/-- A quota changes nothing about the packets. -/
theorem giveQuota_eq (d : Drr) (cfg : DrrConfig) (rr : Nat) :
    ∃ t v, d.giveQuota cfg rr = { d.setTbl rr t with drrTableRR_var := v } ∧
      t.packets = (d.tbl rr).packets ∧ t.Counter = (d.tbl rr).Counter ∧
      t.Timer = (d.tbl rr).Timer ∧ ∀ p, t.takes cfg p = (d.tbl rr).takes cfg p := by
  unfold Drr.giveQuota
  simp only
  split
  · exact ⟨_, _, rfl, rfl, rfl, rfl, fun _ => rfl⟩
  · refine ⟨d.tbl rr, d.drrTableRR_var, ?_, rfl, rfl, rfl, fun _ => rfl⟩
    simp [Drr.setTbl]

/-- What is left when nothing was handed out. -/
structure Keeps (cfg : DrrConfig) (d d' : Drr) (l l' : List Nat) : Prop where
  queued : d'.Queued cfg l'
  packets : d'.flowPackets l' = d.flowPackets l
  spanning : d'.SpanningTbl = d.SpanningTbl
  special : d'.SpecialTbl = d.SpecialTbl

/-- A quota leaves the packets. -/
theorem giveQuota_spec (h : d.Queued cfg l) (hl : l = pre ++ rr :: post)
    (hrr : d.drrTableRR = some rr) (hbusy : (d.tbl rr).packets ≠ [])
    (hpre : ∀ k ∈ pre, ∀ p ∈ (d.tbl k).packets, ¬ p.Other) :
    Keeps cfg d (d.giveQuota cfg rr) l l ∧ (d.giveQuota cfg rr).drrTableRR = some rr ∧
      ∀ k, ((d.giveQuota cfg rr).tbl k).packets = (d.tbl k).packets := by
  obtain ⟨t, v, hd, ht, hCounter, hTimer, htakes⟩ := giveQuota_eq d cfg rr
  have hpackets : ∀ k, ((d.setTbl rr t).tbl k).packets = (d.tbl k).packets := by
    intro k
    by_cases hk : k = rr
    · subst hk
      rw [setTbl_self, ht]
    · rw [setTbl_of_ne hk]
  have hold := h.healthy rr (by simp [hl])
  have hfp : (d.setTbl rr t).flowPackets l = d.flowPackets l :=
    flowPackets_congr fun k _ => hpackets k
  rw [hd]
  refine ⟨⟨@Drr.Queued.set cfg d l rr t d.DrrPacketTotal d.drrTableRR v h htakes
    ⟨?_, ?_, ?_, ?_, ?_⟩ ?_ ?_, hfp, rfl, rfl⟩, hrr, hpackets⟩
  · rw [setTbl_self, hCounter, ht]
    exact hold.Counter
  · rw [setTbl_self, hTimer, ht]
    exact hold.Timer
  · rw [setTbl_self, ht]
    exact hold.ip
  · intro q hq ho
    rw [setTbl_self, ht] at hq
    rw [home_setTbl htakes]
    exact hold.home q hq ho
  · rw [setTbl_self, ht]
    exact hold.tail
  · rw [hfp]
    exact h.total
  · intro _
    refine ⟨pre, rr, post, hl, hrr, ?_, fun k hk q hq => ?_⟩
    · exact (hpackets rr).symm ▸ hbusy
    · exact hpre k hk q (hpackets k ▸ hq)

/-- **The queue in turn** gives nothing, or its first packet. -/
theorem serveFlows_spec (h : d.Queued cfg l) (hpos : d.DrrPacketTotal > 0) :
    (∃ d', d.serveFlows cfg = .ok (d', none) ∧ Keeps cfg d d' l l) ∨
      ∃ d' pkt, d.serveFlows cfg = .ok (d', some pkt) ∧ Gives cfg d d' l pkt := by
  obtain ⟨pre, rr, post, hl, hrr, hbusy, hpre⟩ := h.turn hpos
  obtain ⟨hkeeps, hrr₁, hpackets⟩ := giveQuota_spec h hl hrr hbusy hpre
  unfold Drr.serveFlows
  rw [hrr]
  simp only
  generalize d.giveQuota cfg rr = d₁ at *
  have h₁ := hkeeps.queued
  have hrrl : rr ∈ l := by simp [hl]
  have hold := h₁.healthy rr hrrl
  have hpre₁ : ∀ k ∈ pre, ∀ p ∈ (d₁.tbl k).packets, ¬ p.Other := fun k hk p hp =>
    hpre k hk p (hpackets k ▸ hp)
  split
  · obtain ⟨pkt, rest, hp⟩ : ∃ pkt rest, (d₁.tbl rr).packets = pkt :: rest :=
      List.exists_cons_of_ne_nil ((hpackets rr).symm ▸ hbusy)
    obtain ⟨x, y, hserve⟩ := serve_eq hold.Counter hp
    rw [hserve, bind_ok]
    simp only
    have hrest : ∀ p ∈ rest, ¬ p.Other := fun p hq => hold.tail p (by rw [hp]; exact hq)
    have hgives {t r v} := @gives_spec cfg d₁ l pre post rr t pkt rest x y r v h₁ hl hpre₁ hp
    have htrans {d₂ : Drr} (hg : Gives cfg d₁ d₂ l pkt) : Gives cfg d d₂ l pkt :=
      ⟨hg.queued, hkeeps.packets ▸ hg.perm, hkeeps.packets ▸ hg.order,
        hg.spanning.trans hkeeps.spanning, hg.special.trans hkeeps.special⟩
    right
    generalize htbl : { d₁.tbl rr with
      packets := rest, Counter := (rest.length : Int), Priority := x, pkt_length := y } = t₂
    have hpackets₂ : t₂.packets = rest := by rw [← htbl]
    have hCounter₂ : t₂.Counter = rest.length := by rw [← htbl]
    have hnd := h.list.chain.nodup
    have hrrpre : ∀ k ∈ pre, k ≠ rr := by
      intro k hk
      rw [hl] at hnd
      exact (List.nodup_append.1 hnd).2.2 k hk rr List.mem_cons_self
    have hpre₂ : ∀ k ∈ pre, ∀ p ∈ ((d₁.setTbl rr t₂).tbl k).packets, ¬ p.Other := by
      intro k hk p hq
      rw [setTbl_of_ne (hrrpre k hk)] at hq
      exact hpre₁ k hk p hq
    have htotal : d₁.DrrPacketTotal - 1 = ((d₁.setTbl rr t₂).flowPackets l).length := by
      rw [h₁.total, hl]
      rw [hl] at hnd
      rw [flowPackets_setTbl hnd, hpackets₂, flowPackets_append, flowPackets_cons, hp]
      simp
      omega
    split
    · have hcount : ∀ k ∈ l, ((d₁.setTbl rr t₂).tbl k).Counter =
          ((d₁.setTbl rr t₂).tbl k).packets.length := fun k hk => by
        by_cases hkr : k = rr
        · subst hkr
          rw [setTbl_self, hpackets₂, hCounter₂]
        · rw [setTbl_of_ne hkr]
          exact (h₁.healthy k hk).Counter
      obtain ⟨r, v, hmove, hturn⟩ := @moveRR_spec
        { d₁.setTbl rr t₂ with DrrPacketTotal := d₁.DrrPacketTotal - 1 } l pre post rr h₁.list
        h₁.length_le hcount htotal hl hpre₂ (by
          show ∀ p ∈ ((d₁.setTbl rr t₂).tbl rr).packets, ¬ p.Other
          rw [setTbl_self, hpackets₂]
          exact hrest)
      rw [hmove, bind_ok]
      exact ⟨_, pkt, rfl, htrans (hgives htbl.symm hturn)⟩
    · rename_i hmore
      refine ⟨_, pkt, rfl, htrans (@hgives t₂ d₁.drrTableRR d₁.drrTableRR_var htbl.symm fun _ => ?_)⟩
      refine ⟨pre, rr, post, hl, hrr₁, ?_, hpre₂⟩
      show ((d₁.setTbl rr t₂).tbl rr).packets ≠ []
      rw [setTbl_self, hpackets₂]
      rintro rfl
      exact hmore (.inl (Int.le_refl 0))
  · exact .inl ⟨_, rfl, hkeeps⟩

/-- `intrq` hands out nothing, or the first packet of its flow. -/
theorem intrq_spec (h : d.Queued cfg l) :
    (∃ d', d.intrq cfg = .ok (d', none) ∧ Keeps cfg d d' l l) ∨
      ∃ d' pkt, d.intrq cfg = .ok (d', some pkt) ∧ Gives cfg d d' l pkt := by
  have hspanning : ¬ d.SpanningTbl.Counter > 0 := by rw [h.spanning]; decide
  have hspecial : ¬ d.SpecialTbl.Counter > 0 := by rw [h.special]; decide
  unfold Drr.intrq
  rw [if_neg hspanning, if_neg hspecial]
  split
  · rename_i hpos
    exact serveFlows_spec h hpos
  · exact .inl ⟨d, rfl, h, rfl, rfl, rfl⟩

/-! ### A sweep -/

/-- Behind a queue that stays no two queues in a row go. -/
def Spaced (e : Nat → Bool) (kept rest : List Nat) : Prop :=
  (if kept = [] then rest.dropWhile e else rest).IsChain fun a b => ¬ (e a = true ∧ e b = true)

theorem tick_of_busy (h : t.Counter > 0) : Drr.tick t = t := if_neg (by omega)

/-- A tick changes the timer only. -/
theorem tick_eq (t : DrrTbl) : ∃ x, Drr.tick t = { t with Timer := x } := by
  unfold Drr.tick
  split
  · exact ⟨_, rfl⟩
  · exact ⟨t.Timer, rfl⟩

/-- A queue is taken out of the list. -/
theorem unlink_spec {kept rest : List Nat} {prev : Option Nat}
    (h : IsList d.Next d.drrTableAll.First d.drrTableAll.Tail (kept ++ k :: rest))
    (hcount : d.drrTableAll.Counter = (kept ++ k :: rest).length)
    (hprev : kept ≠ [] → prev = kept.getLast?) :
    ∃ Next all, d.unlink prev k = .ok { d with Next := Next, drrTableAll := all } ∧
      IsList Next all.First all.Tail (kept ++ rest) ∧ all.Counter = (kept ++ rest).length ∧
      Next k = d.Next k := by
  unfold Drr.unlink
  have hcount' : d.drrTableAll.Counter - 1 = ((kept ++ rest).length : Int) := by
    rw [hcount]
    simp
    omega
  rcases List.eq_nil_or_concat kept with rfl | ⟨pre, x, rfl⟩
  · have hfirst : d.drrTableAll.First = some k := h.chain.1
    simp only [if_pos hfirst]
    refine ⟨d.Next, _, rfl, ?_, hcount', rfl⟩
    cases rest with
    | nil =>
      have hnone : d.Next k = none := h.chain.2
      simp only [hnone, if_true]
      exact ⟨rfl, rfl⟩
    | cons j rest =>
      have hsome : d.Next k = some j := h.chain.2.1
      have hbehind := h.behind (by simp)
      rw [hsome] at hbehind ⊢
      simpa using hbehind
  · rw [List.concat_eq_append] at h hprev hcount' ⊢
    have hnd := h.chain.nodup
    have hkx : k ≠ x := by
      rintro rfl
      exact (List.nodup_append.1 hnd).2.2 k (by simp) k List.mem_cons_self rfl
    have hfirst : d.drrTableAll.First ≠ some k := by
      rw [h.head_eq]
      intro hhead
      have hin : k ∈ pre ++ [x] := List.mem_of_mem_head? (by simpa using hhead)
      exact (List.nodup_append.1 hnd).2.2 k hin k List.mem_cons_self rfl
    have hlast : prev = some x := by simpa using hprev (by simp)
    have hmid : IsList d.Next d.drrTableAll.First d.drrTableAll.Tail (pre ++ x :: k :: rest) := by
      simpa using h
    simp only [if_neg hfirst, hlast]
    cases rest with
    | nil =>
      have htail : d.drrTableAll.Tail = some k := by simp [h.tail]
      rw [if_pos htail]
      refine ⟨_, _, rfl, ?_, hcount', Function.update_of_ne hkx _ _⟩
      simpa [Drr.link] using hmid.skip_last
    | cons j rest =>
      have htail : d.drrTableAll.Tail ≠ some k := by
        rw [h.tail]
        intro hk
        have hin : k ∈ j :: rest := List.mem_of_getLast? (by simpa [List.getLast?_cons] using hk)
        exact (List.nodup_cons.1 (List.nodup_append.1 hnd).2.1).1 hin
      rw [if_neg htail]
      refine ⟨_, _, rfl, ?_, hcount', Function.update_of_ne hkx _ _⟩
      simpa [Drr.link] using hmid.skip_after (by simp)

/-- The sweep from a queue on, when the queues `kept` stay and `rest` are still to come. -/
theorem sweep_spec {e : Nat → Bool} {kept rest : List Nat} {prev : Option Nat} {n : Nat}
    (h : IsList d.Next d.drrTableAll.First d.drrTableAll.Tail (kept ++ rest))
    (hcount : d.drrTableAll.Counter = (kept ++ rest).length) (hn : rest.length ≤ n)
    (he : ∀ k ∈ rest, d.expires k = e k) (hspaced : Spaced e kept rest)
    (hprev : kept ≠ [] → prev = kept.getLast? ∨ ∀ k ∈ rest.head?, e k = false) :
    ∃ tbl Next all, Drr.sweep n prev rest.head? d =
        .ok { d with tbl := tbl, Next := Next, drrTableAll := all } ∧
      IsList Next all.First all.Tail (kept ++ rest.filter fun k => !e k) ∧
      all.Counter = (kept ++ rest.filter fun k => !e k).length ∧
      ∀ k, tbl k = if k ∈ rest then Drr.tick (d.tbl k) else d.tbl k := by
  induction rest generalizing d kept prev n with
  | nil =>
    refine ⟨d.tbl, d.Next, d.drrTableAll, ?_, by simpa using h, by simpa using hcount,
      fun _ => (if_neg List.not_mem_nil).symm⟩
    cases n <;> rfl
  | cons k rest ih =>
    obtain ⟨n, rfl⟩ : ∃ m, n = m + 1 := ⟨n - 1, by simp at hn; omega⟩
    have hlink : d.Next k = rest.head? := h.chain.after.head_eq
    have hnd := (List.nodup_append.1 h.chain.nodup).2.1
    have hek : (Drr.tick (d.tbl k)).Timer ≥ 5 ↔ e k = true := by
      rw [← he k List.mem_cons_self, Drr.expires, decide_eq_true_iff]
    have hother : ∀ j ∈ rest, (d.setTbl k (Drr.tick (d.tbl k))).tbl j = d.tbl j := fun j hj =>
      setTbl_of_ne (ne_of_mem_of_not_mem hj (List.nodup_cons.1 hnd).1)
    have he' : ∀ j ∈ rest, (d.setTbl k (Drr.tick (d.tbl k))).expires j = e j := by
      intro j hj
      rw [Drr.expires, hother j hj]
      exact he j (List.mem_cons_of_mem _ hj)
    have htbl : ∀ j, (if j ∈ rest then Drr.tick ((d.setTbl k (Drr.tick (d.tbl k))).tbl j)
          else (d.setTbl k (Drr.tick (d.tbl k))).tbl j) =
        if j ∈ k :: rest then Drr.tick (d.tbl j) else d.tbl j := fun j => by
      by_cases hj : j ∈ rest
      · rw [if_pos hj, hother j hj, if_pos (List.mem_cons_of_mem _ hj)]
      · rw [if_neg hj]
        by_cases hjk : j = k
        · subst hjk
          rw [setTbl_self, if_pos List.mem_cons_self]
        · rw [setTbl_of_ne hjk, if_neg (by simp [hjk, hj])]
    simp only [List.head?_cons, Drr.sweep, setTbl_self]
    by_cases hexp : e k = true
    · rw [if_pos (hek.2 hexp)]
      have hkeep : (k :: rest).filter (fun k => !e k) = rest.filter fun k => !e k := by simp [hexp]
      have hprev' : kept ≠ [] → prev = kept.getLast? := fun hne =>
        (hprev hne).resolve_right fun hall => by simp [hexp] at hall
      obtain ⟨Next, all, hunlink, hlist, hcount', hnext⟩ := @unlink_spec
        (d.setTbl k (Drr.tick (d.tbl k))) k kept rest prev h hcount hprev'
      have hspaced' : Spaced e kept rest ∧ (kept ≠ [] → ∀ j ∈ rest.head?, e j = false) := by
        unfold Spaced at hspaced ⊢
        by_cases hkept : kept = []
        · rw [if_pos hkept, List.dropWhile_cons_of_pos hexp] at hspaced
          rw [if_pos hkept]
          exact ⟨hspaced, fun hne => absurd hkept hne⟩
        · rw [if_neg hkept, List.isChain_cons] at hspaced
          rw [if_neg hkept]
          exact ⟨hspaced.2, fun _ j hj => by simpa [hexp] using hspaced.1 j hj⟩
      obtain ⟨tbl, Next', all', hsweep, hlist', hcount'', htbl'⟩ := @ih
        { d.setTbl k (Drr.tick (d.tbl k)) with Next := Next, drrTableAll := all } kept (some k) n hlist
        hcount' (by simpa using hn) he' hspaced'.1 fun hne => .inr (hspaced'.2 hne)
      rw [hunlink, bind_ok, hkeep]
      refine ⟨tbl, Next', all', ?_, hlist', hcount'', fun j => (htbl' j).trans (htbl j)⟩
      simp only [hnext]
      have hlink' : (d.setTbl k (Drr.tick (d.tbl k))).Next k = rest.head? := hlink
      rw [hlink', hsweep]
      rfl
    · rw [if_neg (mt hek.1 hexp), bind_ok]
      have hkeep : (k :: rest).filter (fun k => !e k) = k :: rest.filter fun k => !e k := by
        simp [hexp]
      have hsplit : kept ++ k :: rest = (kept ++ [k]) ++ rest := by simp
      have hspaced' : Spaced e (kept ++ [k]) rest := by
        have hchain : (k :: rest).IsChain fun a b => ¬ (e a = true ∧ e b = true) := by
          unfold Spaced at hspaced
          split at hspaced
          · rwa [List.dropWhile_cons_of_neg hexp] at hspaced
          · exact hspaced
        unfold Spaced
        rw [if_neg (by simp)]
        exact (List.isChain_cons.1 hchain).2
      rw [hsplit] at h hcount
      obtain ⟨tbl, Next, all, hsweep, hlist, hcount', htbl'⟩ := @ih
        (d.setTbl k (Drr.tick (d.tbl k))) (kept ++ [k]) (some k) n h hcount (by simpa using hn) he'
        hspaced' fun _ => .inl (by simp)
      rw [hkeep]
      refine ⟨tbl, Next, all, ?_, by simpa using hlist, by simpa using hcount',
        fun j => (htbl' j).trans (htbl j)⟩
      have hlink' : (d.setTbl k (Drr.tick (d.tbl k))).Next k = rest.head? := hlink
      rw [hlink', hsweep]
      rfl

/-- Queues without packets taken out of the list. -/
theorem flowPackets_filter {e : Nat → Bool} (h : ∀ k ∈ l, e k = true → (d.tbl k).packets = []) :
    d.flowPackets (l.filter fun k => !e k) = d.flowPackets l := by
  induction l with
  | nil => rfl
  | cons k l ih =>
    have hih := ih fun j hj => h j (List.mem_cons_of_mem _ hj)
    by_cases hk : e k = true
    · have hfilter : (k :: l).filter (fun k => !e k) = l.filter fun k => !e k := by simp [hk]
      rw [hfilter, hih, flowPackets_cons, h k List.mem_cons_self hk, List.nil_append]
    · have hfilter : (k :: l).filter (fun k => !e k) = k :: l.filter fun k => !e k := by simp [hk]
      rw [hfilter, flowPackets_cons, hih, flowPackets_cons]

/-- **A sweep** that deletes no two queues next to each other. -/
theorem Delete_que_spec (h : d.Queued cfg l)
    (hsafe : (l.dropWhile d.expires).IsChain fun a b => ¬ (d.expires a = true ∧ d.expires b = true)) :
    ∃ d' l', d.Delete_que = .ok d' ∧ Keeps cfg d d' l l' := by
  obtain ⟨tbl, Next, all, hsweep, hlist, hcount, htbl⟩ := @sweep_spec d d.expires [] l none
    d.allocated h.list h.count h.length_le (fun _ _ => rfl) (by rw [Spaced, if_pos rfl]; exact hsafe)
    fun hne => absurd rfl hne
  rw [List.nil_append] at hlist hcount
  have hexp : ∀ k ∈ l, d.expires k = true → (d.tbl k).packets = [] := by
    intro k hk hek
    by_contra hne
    have hold := h.healthy k hk
    have hbusy : (d.tbl k).Counter > 0 := by
      have hpos := List.length_pos_iff.2 hne
      rw [hold.Counter]
      omega
    have htimer := of_decide_eq_true hek
    rw [tick_of_busy hbusy, hold.Timer hne] at htimer
    exact absurd htimer (by decide)
  have hshape : ∀ k, ∃ x, tbl k = { d.tbl k with Timer := x } := by
    intro k
    rw [htbl k]
    split
    · exact tick_eq _
    · exact ⟨(d.tbl k).Timer, rfl⟩
  have hpackets : ∀ k, (tbl k).packets = (d.tbl k).packets := by
    intro k
    obtain ⟨x, hx⟩ := hshape k
    rw [hx]
  have hfp : Drr.flowPackets { d with tbl := tbl, Next := Next, drrTableAll := all }
      (l.filter fun k => !d.expires k) = d.flowPackets l := by
    rw [← flowPackets_filter hexp]
    exact flowPackets_congr fun k _ => hpackets k
  have hhome : ∀ p k, d.home cfg l p = some k → d.expires k = false →
      Drr.home { d with tbl := tbl, Next := Next, drrTableAll := all } cfg
        (l.filter fun k => !d.expires k) p = some k := fun p k hk hek => by
    obtain ⟨htakes, as, bs, hl, has⟩ := List.find?_eq_some_iff_append.1 hk
    have hsame : ∀ j, (tbl j).takes cfg p = (d.tbl j).takes cfg p := by
      intro j
      obtain ⟨x, hx⟩ := hshape j
      rw [hx]
      rfl
    refine List.find?_eq_some_iff_append.2 ⟨(hsame k).trans htakes,
      as.filter (fun k => !d.expires k), bs.filter (fun k => !d.expires k), ?_, fun j hj => ?_⟩
    · rw [hl, List.filter_append, List.filter_cons_of_pos (by simp [hek])]
    · show (!(tbl j).takes cfg p) = true
      rw [hsame]
      exact has j (List.mem_of_mem_filter hj)
  have hrun : d.Delete_que = .ok { d with tbl := tbl, Next := Next, drrTableAll := all } := by
    rw [Drr.Delete_que, h.list.head_eq]
    exact hsweep
  refine ⟨_, _, hrun, ⟨hlist, fun k hk => h.lt k (List.mem_of_mem_filter hk), hcount, fun k hk => ?_,
    ?_, fun hpos => ?_, h.spanning, h.special⟩, hfp, rfl, rfl⟩
  · have hkl := List.mem_of_mem_filter hk
    have hek : d.expires k = false := by simpa using (List.mem_filter.1 hk).2
    have hold := h.healthy k hkl
    refine ⟨?_, fun hne => ?_, fun p hp => ?_, fun p hp ho => ?_, fun p hp => ?_⟩
    · obtain ⟨x, hx⟩ := hshape k
      show (tbl k).Counter = (tbl k).packets.length
      rw [hx]
      exact hold.Counter
    · have hne : (d.tbl k).packets ≠ [] := hpackets k ▸ hne
      have hpos := List.length_pos_iff.2 hne
      show (tbl k).Timer = 0
      rw [htbl k, if_pos hkl, tick_of_busy (by rw [hold.Counter]; omega)]
      exact hold.Timer hne
    · exact hold.ip p (hpackets k ▸ hp)
    · exact hhome p k (hold.home p (hpackets k ▸ hp) ho) hek
    · exact hold.tail p (hpackets k ▸ hp)
  · rw [hfp]
    exact h.total
  · obtain ⟨pre, rr, post, hl, hrr, hbusy, hpre⟩ := h.turn hpos
    have hek : d.expires rr = false := by
      by_contra hne
      exact hbusy (hexp rr (by simp [hl]) (by simpa using hne))
    refine ⟨pre.filter (fun k => !d.expires k), rr, post.filter (fun k => !d.expires k), ?_, hrr,
      (hpackets rr).symm ▸ hbusy, fun k hk p hp => ?_⟩
    · rw [hl, List.filter_append, List.filter_cons_of_pos (by simp [hek])]
    · exact hpre k (List.mem_of_mem_filter hk) p (hpackets k ▸ hp)

/-! ### All packets -/

/-- Every packet is in one place, and those of a flow that still wait are behind those that left. -/
structure LedgerInv (cfg : DrrConfig) (w : Ledger) (l : List Nat) : Prop where
  queued : w.drr.Queued cfg l
  numbered : w.arrived.map (·.ep) = List.range w.arrived.length
  perm : w.arrived.Perm (w.log.map Prod.snd ++ w.drr.SpanningTbl.packets ++
    w.drr.SpecialTbl.packets ++ w.drr.flowPackets l)
  order : ∀ f, (w.exits cfg f ++
    (w.drr.flowPackets l).filter fun q => decide (q.flow cfg = f)).Pairwise fun p q => p.ep < q.ep

variable {w w' : Ledger} {h : Header}

/-- The invariant gives the account. -/
theorem LedgerInv.accounted (hw : LedgerInv cfg w l) : Accounted cfg w := by
  refine ⟨l, hw.queued.list.chain, ?_, hw.perm, fun f => ?_, hw.queued.total⟩
  · rw [hw.numbered]
    exact List.nodup_range
  · exact (List.pairwise_append.1 (hw.order f)).1

/-- Nothing has come. -/
theorem LedgerInv.init : LedgerInv cfg (Ledger.init t) [] where
  queued := init_queued
  numbered := rfl
  perm := List.Perm.refl _
  order _ := List.Pairwise.nil

/-- A packet that has arrived before has a smaller number. -/
theorem LedgerInv.ep_lt (hw : LedgerInv cfg w l) (hq : q ∈ w.arrived) :
    q.ep < (w.packet h).ep := by
  have hmem := List.mem_map_of_mem (f := fun p : Packet => p.ep) hq
  rw [hw.numbered] at hmem
  exact List.mem_range.1 hmem

/-- The packets are numbered as they come. -/
theorem LedgerInv.numbered_snoc (hw : LedgerInv cfg w l) (h : Header) :
    (w.arrived ++ [w.packet h]).map (·.ep) = List.range (w.arrived ++ [w.packet h]).length := by
  rw [List.map_append, hw.numbered, List.length_append, List.length_singleton, List.range_succ]
  rfl

/-- One packet more has left. -/
theorem exits_snoc (cfg : DrrConfig) (w : Ledger) (d : Drr) (arrived : List Packet) (e : Fate)
    (p : Packet) (f : Flow) :
    Ledger.exits { drr := d, arrived := arrived, log := w.log ++ [(e, p)] } cfg f =
      w.exits cfg f ++ if e ≠ .freed ∧ p.flow cfg = f then [p] else [] := by
  unfold Ledger.exits
  rw [List.filter_append, List.map_append]
  congr 1
  by_cases hp : e ≠ .freed ∧ p.flow cfg = f
  · simp [hp.1, hp.2]
  · rw [if_neg hp, List.filter_singleton]
    simp [hp]

/-- What has left has come. -/
theorem mem_arrived_of_exits (hw : LedgerInv cfg w l) {f : Flow} (hq : q ∈ w.exits cfg f) :
    q ∈ w.arrived := by
  obtain ⟨e, he, rfl⟩ := List.mem_map.1 hq
  refine hw.perm.mem_iff.2 ?_
  have hlog : e.2 ∈ w.log.map Prod.snd := List.mem_map_of_mem (List.mem_of_mem_filter he)
  simp only [List.mem_append]
  exact .inl (.inl (.inl hlog))

theorem mem_arrived_of_flowPackets (hw : LedgerInv cfg w l) (hq : q ∈ w.drr.flowPackets l) :
    q ∈ w.arrived := hw.perm.mem_iff.2 (List.mem_append.2 (.inr hq))

/-- A packet that is not queued. -/
theorem LedgerInv.leave {e : Fate} (hw : LedgerInv cfg w l)
    (he : e ≠ .freed → ∀ q ∈ w.drr.flowPackets l, q.flow cfg ≠ (w.packet h).flow cfg) :
    LedgerInv cfg
      { drr := w.drr, arrived := w.arrived ++ [w.packet h], log := w.log ++ [(e, w.packet h)] } l where
  queued := hw.queued
  numbered := hw.numbered_snoc h
  perm := by
    refine (hw.perm.append_right [w.packet h]).trans ?_
    simp only [List.map_append, List.append_assoc]
    refine List.Perm.append_left _ ?_
    simpa using @List.perm_append_comm _ (w.drr.SpanningTbl.packets ++
      (w.drr.SpecialTbl.packets ++ w.drr.flowPackets l)) [w.packet h]
  order f := by
    rw [exits_snoc]
    split
    · rename_i hp
      have hnone : (w.drr.flowPackets l).filter (fun q => decide (q.flow cfg = f)) = [] :=
        List.filter_eq_nil_iff.2 fun q hq hqf =>
          he hp.1 q hq ((of_decide_eq_true hqf).trans hp.2.symm)
      rw [hnone, List.append_nil]
      refine List.pairwise_append.2 ⟨(List.pairwise_append.1 (hw.order f)).1,
        List.pairwise_singleton _ _, fun q hq p hp => ?_⟩
      rw [List.mem_singleton.1 hp]
      exact hw.ep_lt (mem_arrived_of_exits hw hq)
    · rw [List.append_nil]
      exact hw.order f

/-- A packet that is queued. -/
theorem LedgerInv.wait {d' : Drr} {l' : List Nat} (hw : LedgerInv cfg w l)
    (ht : Takes cfg w.drr d' l l' (w.packet h)) :
    LedgerInv cfg { drr := d', arrived := w.arrived ++ [w.packet h], log := w.log } l' where
  queued := ht.queued
  numbered := hw.numbered_snoc h
  perm := by
    refine (hw.perm.append_right [w.packet h]).trans ?_
    rw [ht.spanning, ht.special, List.append_assoc]
    exact (List.Perm.append_left _ ht.perm.symm)
  order f := by
    rw [ht.order f, List.filter_append, ← List.append_assoc]
    refine List.pairwise_append.2 ⟨hw.order f, ?_, fun q hq p hp => ?_⟩
    · exact (List.pairwise_singleton _ _).sublist List.filter_sublist
    · rw [List.mem_singleton.1 (List.mem_of_mem_filter hp)]
      refine hw.ep_lt ?_
      rcases List.mem_append.1 hq with hq | hq
      · exact mem_arrived_of_exits hw hq
      · exact mem_arrived_of_flowPackets hw (List.mem_of_mem_filter hq)

/-- A packet that is handed out. -/
theorem LedgerInv.serve {d' : Drr} {pkt : Packet} (hw : LedgerInv cfg w l)
    (hg : Gives cfg w.drr d' l pkt) :
    LedgerInv cfg { drr := d', arrived := w.arrived, log := w.log ++ [(.handedOut, pkt)] } l where
  queued := hg.queued
  numbered := hw.numbered
  perm := by
    refine hw.perm.trans ?_
    rw [hg.spanning, hg.special]
    simp only [List.map_append, List.append_assoc]
    refine List.Perm.append_left _ ?_
    have hfront : (pkt :: (w.drr.SpanningTbl.packets ++ (w.drr.SpecialTbl.packets ++
        d'.flowPackets l))).Perm
        (w.drr.SpanningTbl.packets ++ (w.drr.SpecialTbl.packets ++ (pkt :: d'.flowPackets l))) := by
      simpa using (@List.perm_middle _ pkt (w.drr.SpanningTbl.packets ++ w.drr.SpecialTbl.packets)
        (d'.flowPackets l)).symm
    refine List.Perm.trans ?_ hfront.symm
    exact List.Perm.append_left _ (List.Perm.append_left _ hg.perm.symm)
  order f := by
    have hold := hw.order f
    rw [← hg.order f] at hold
    rw [exits_snoc]
    by_cases hf : pkt.flow cfg = f
    · simpa [hf] using hold
    · simpa [hf] using hold

/-- Queues that have kept their packets. -/
theorem LedgerInv.keep {d' : Drr} {l' : List Nat} (hw : LedgerInv cfg w l)
    (hk : Keeps cfg w.drr d' l l') : LedgerInv cfg { w with drr := d' } l' where
  queued := hk.queued
  numbered := hw.numbered
  perm := by
    rw [hk.spanning, hk.special, hk.packets]
    exact hw.perm
  order f := by
    rw [hk.packets]
    exact hw.order f

/-- A packet in an empty queue of its own. -/
theorem insert_empty (hc : t.Counter = 0) :
    (t.insert p).packets = [p] ∧ (t.insert p).Counter = 0 := by
  unfold DrrTbl.insert
  rw [if_pos hc]
  exact ⟨rfl, hc⟩

/-- A spanning tree packet that waits while no other one does. -/
theorem LedgerInv.insertSpanning (hw : LedgerInv cfg w l) (he : w.drr.SpanningTbl.packets = []) :
    LedgerInv cfg
      { drr := { w.drr with SpanningTbl := w.drr.SpanningTbl.insert (w.packet h) }
        arrived := w.arrived ++ [w.packet h]
        log := w.log } l := by
  have hq := hw.queued
  obtain ⟨hpackets, hCounter⟩ := @insert_empty (w.packet h) _ hq.spanning
  refine ⟨⟨hq.list, hq.lt, hq.count, fun k hk => (hq.healthy k hk).keep rfl fun _ => id, hq.total,
    hq.turn, hCounter, hq.special⟩, hw.numbered_snoc h, ?_, hw.order⟩
  refine (hw.perm.append_right [w.packet h]).trans ?_
  simp only [he, hpackets, List.append_nil, List.append_assoc]
  refine List.Perm.append_left _ ?_
  show (w.drr.SpecialTbl.packets ++ (w.drr.flowPackets l ++ [w.packet h])).Perm
    ([w.packet h] ++ (w.drr.SpecialTbl.packets ++ w.drr.flowPackets l))
  rw [← List.append_assoc]
  exact List.perm_append_comm

/-- A packet of another type that waits while no other one does. -/
theorem LedgerInv.insertSpecial (hw : LedgerInv cfg w l) (he : w.drr.SpecialTbl.packets = []) :
    LedgerInv cfg
      { drr := { w.drr with SpecialTbl := w.drr.SpecialTbl.insert (w.packet h) }
        arrived := w.arrived ++ [w.packet h]
        log := w.log } l := by
  have hq := hw.queued
  obtain ⟨hpackets, hCounter⟩ := @insert_empty (w.packet h) _ hq.special
  refine ⟨⟨hq.list, hq.lt, hq.count, fun k hk => (hq.healthy k hk).keep rfl fun _ => id, hq.total,
    hq.turn, hq.spanning, hCounter⟩, hw.numbered_snoc h, ?_, hw.order⟩
  refine (hw.perm.append_right [w.packet h]).trans ?_
  simp only [he, hpackets, List.append_nil, List.append_assoc]
  refine List.Perm.append_left _ (List.Perm.append_left _ ?_)
  exact List.perm_append_comm

/-- Packets of flows are not those of the other two classes. -/
theorem flow_ne_of_type (hq : q.ether_type = 0x0800) (hp : p.ether_type ≠ 0x0800) :
    q.flow cfg ≠ p.flow cfg := by
  have h1 : ¬ (0x0800 : UInt16) = 0x0001 := by decide
  have h2 : ¬ (0x0800 : UInt16) ≠ 0x0800 := by decide
  unfold Packet.flow
  rw [hq, if_neg h1, if_neg h2, if_pos hp]
  by_cases hone : p.ether_type = 0x0001 <;> simp [hone]

/-- One call. -/
theorem step_spec (hw : LedgerInv cfg w l) {c : Call} (hc : Careful cfg w c) :
    ∃ w' l', w.step cfg c = .ok w' ∧ LedgerInv cfg w' l' := by
  have hq := hw.queued
  cases c with
  | send qfull h =>
    have hother : (w.packet h).ether_type ≠ 0x0800 →
        ∀ q ∈ w.drr.flowPackets l, q.flow cfg ≠ (w.packet h).flow cfg := by
      intro hne q hmem
      obtain ⟨k, hk, hqk⟩ := mem_flowPackets.1 hmem
      exact flow_ne_of_type ((hq.healthy k hk).ip q hqk) hne
    simp only [Careful, hq.queues_eq] at hc
    simp only [Ledger.step, Drr.send]
    by_cases h1 : (w.packet h).ether_type = 0x0001
    · have hne : (w.packet h).ether_type ≠ 0x0800 := by
        rw [h1]
        decide
      rw [if_pos h1] at hc ⊢
      split
      · rename_i hfull
        exact ⟨_, l, rfl, by simpa using hw.insertSpanning (hc hfull)⟩
      · exact ⟨_, l, rfl, hw.leave fun _ => hother hne⟩
    · rw [if_neg h1] at hc ⊢
      by_cases h2 : (w.packet h).ether_type ≠ 0x0800
      · rw [if_pos h2] at hc ⊢
        split
        · rename_i hfull
          exact ⟨_, l, rfl, by simpa using hw.insertSpecial (hc hfull)⟩
        · exact ⟨_, l, rfl, hw.leave fun _ => hother h2⟩
      · rw [if_neg h2] at hc ⊢
        split
        · rcases enque_spec hq (not_not.1 h2) with henq | ⟨d', l', henq, htakes⟩
          · rw [henq]
            exact ⟨_, l, rfl, hw.leave fun hf => absurd rfl hf⟩
          · rw [henq]
            exact ⟨_, l', rfl, by simpa using hw.wait htakes⟩
        · rename_i hfull
          exact ⟨_, l, rfl, hw.leave fun _ => hc (by simpa using hfull)⟩
  | intrq =>
    simp only [Ledger.step]
    rcases intrq_spec hq with ⟨d', hrun, hkeeps⟩ | ⟨d', pkt, hrun, hgives⟩
    · rw [hrun]
      exact ⟨_, l, rfl, by simpa using hw.keep hkeeps⟩
    · rw [hrun]
      exact ⟨_, l, rfl, hw.serve hgives⟩
  | Delete_que =>
    simp only [Careful, hq.queues_eq] at hc
    obtain ⟨d', l', hrun, hkeeps⟩ := Delete_que_spec hq hc
    simp only [Ledger.step, hrun]
    exact ⟨_, l', rfl, hw.keep hkeeps⟩

/-- The default configuration. -/
def defaults : DrrConfig where
  DrrMaxBufSpaceForAllFlows := 200
  DrrMaxQueLenForEachFlow := 50
  CreditAddedPerRound := 1500
  s_mask_long := 0xffffffff
  d_mask_long := 0xffffffff
  protocol_care := true
  s_portn_care := true
  d_portn_care := true
  uninit := fun _ => (0, 0)

/-- A queue without packets. -/
def emptyTbl : DrrTbl := ⟨0, 0, 0, 0, 0, 0, 0, 0, 0, []⟩

/-- Two TCP packets of one flow, a packet of a protocol without ports and a spanning tree packet come
    to a full module. -/
def fourPackets : List Call :=
  [.send true ⟨0x0800, 1, 2, 6, 80, 81, 1000⟩, .send true ⟨0x0800, 1, 2, 6, 80, 81, 900⟩,
    .send true ⟨0x0800, 1, 2, 47, 0, 0, 100⟩, .send true ⟨1, 0, 0, 0, 0, 0, 0⟩, .intrq, .intrq, .intrq,
    .Delete_que]

end Ps
