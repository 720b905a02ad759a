import Mathlib.Data.List.Perm.Basic
import Nctuns.Ds.Interior
import Nctuns.Lib.Outcome

/-!
# Proofs about the interior node of a DiffServ domain

With 1500 bytes more on its account a queue can pay for its first packet. So `intrq` only has to find a
queue that has packets: after fifty tries in vain it takes the first one.
-/

namespace Ds

open Run Outcome

variable {params : DsParams} {d d' : DsI} {q q' : DSQueue} {pkt : Packet} {name : QueueName}

/-! ### Queues -/

namespace DSQueue

/-- A queue is empty when it holds no packet. -/
theorem isEmpty_iff (q : DSQueue) : q.isEmpty ↔ q.packets = [] := by
  unfold isEmpty
  rw [← UInt32.toNat_inj, q._length_toNat]
  exact List.length_eq_zero_iff

@[simp] theorem withAccount_packets (q : DSQueue) (a : UInt32) :
    (q.withAccount a).packets = q.packets := rfl

/-- Adding to the account leaves the packets. -/
@[simp] theorem addAccount_packets (q : DSQueue) : q.addAccount.packets = q.packets := by
  unfold addAccount
  by_cases h : q._account < _accountUnit * 10
  · rw [if_pos h, withAccount_packets]
  · rw [if_neg h]

/-- A queue that is served has the bytes of a packet on its account. -/
theorem le_addAccount (q : DSQueue) : 1500 ≤ q.addAccount._account.toNat := by
  have hunit : (_accountUnit * 10).toNat = 15000 := by decide
  unfold addAccount
  by_cases h : q._account < _accountUnit * 10
  · have hlt := UInt32.lt_iff_toNat_lt.1 h
    rw [hunit] at hlt
    rw [if_pos h]
    show 1500 ≤ (q._account + 1500).toNat
    rw [UInt32.toNat_add, show (1500 : UInt32).toNat = 1500 from rfl, Nat.mod_eq_of_lt (by omega)]
    omega
  · have hge := UInt32.le_iff_toNat_le.1 (UInt32.not_lt.1 h)
    rw [hunit] at hge
    rw [if_neg h]
    omega

/-- With the account filled up the first packet leaves. -/
theorem dequeue_addAccount {rest : List Packet} (h : q.packets = pkt :: rest)
    (hlen : pkt.ether_type = 0x0800 → pkt.ip_len.toNat ≤ 1500) :
    q.addAccount.dequeue.1 = some pkt ∧ q.addAccount.dequeue.2.packets = rest := by
  have hpackets : q.addAccount.packets = pkt :: rest := by rw [addAccount_packets, h]
  have htail : ∀ a, (q.addAccount.behindHead a).packets = rest := by
    intro a
    show q.addAccount.packets.tail = rest
    rw [hpackets]
    rfl
  have hnext : q.addAccount.getNext = some pkt := by rw [getNext, hpackets, List.head?_cons]
  unfold dequeue
  rw [hnext]
  dsimp only
  by_cases hip : pkt.ether_type = 0x0800
  · have hpaid : ¬ pkt.ip_len.toUInt32 > q.addAccount._account := by
      have hacc := q.le_addAccount
      have hle := hlen hip
      rw [gt_iff_lt, UInt32.not_lt, UInt32.le_iff_toNat_le, UInt16.toNat_toUInt32]
      omega
    rw [if_neg (not_not.2 hip), if_neg hpaid]
    exact ⟨rfl, htail _⟩
  · rw [if_pos hip]
    exact ⟨rfl, htail _⟩

/-- What `dequeue` gives is the first packet; without one the packets stay. -/
theorem dequeue_packets (q : DSQueue) : q.packets = q.dequeue.1.toList ++ q.dequeue.2.packets := by
  unfold dequeue
  split
  · rfl
  next pkt h =>
    have htail : ∀ a, q.packets = pkt :: (q.behindHead a).packets := fun _ =>
      (List.cons_head?_tail h).symm
    split
    · exact htail _
    · split
      · rfl
      · exact htail _

end DSQueue

/-! ### The queued packets -/

namespace DsI

/-- The packets of a configured queue. -/
theorem packetsOf_of_queue (h : d.queue name = some q) : d.packetsOf name = q.packets := by
  unfold packetsOf
  rw [h]
  rfl

/-- The idle test of a queue asks for its packets. -/
theorem idle_some_iff : d.idle (some name) ↔ d.packetsOf name = [] := by
  unfold idle packetsOf
  rw [Option.bind_some]
  cases d.queue name with
  | none => simp
  | some q => simpa using q.isEmpty_iff

/-- The packets after one queue is replaced. -/
theorem packetsOf_setQueue (name' : QueueName) : (d.setQueue name q).packetsOf name' =
    if name' = name then q.packets else d.packetsOf name' := by
  unfold packetsOf setQueue
  dsimp only
  by_cases h : name' = name
  · rw [if_pos h, h, Function.update_self]
    rfl
  · rw [if_neg h, Function.update_of_ne h]

theorem mem_allQueues (name : QueueName) : name ∈ allQueues := by
  cases name <;> decide

/-- There is no backlog when every queue is empty. -/
theorem backlog_eq_nil : d.backlog = [] ↔ ∀ name, d.packetsOf name = [] := by
  unfold backlog
  rw [List.flatMap_eq_nil_iff]
  exact ⟨fun h name => h name (mem_allQueues name), fun h name _ => h name⟩

/-- Packets taken out of one queue are taken out of the backlog. -/
theorem backlog_setQueue {out : List Packet} (h : d.packetsOf name = out ++ q.packets) :
    (out ++ (d.setQueue name q).backlog).Perm d.backlog := by
  obtain ⟨pre, post, hall⟩ := List.append_of_mem (mem_allQueues name)
  have hnd : allQueues.Nodup := by decide
  rw [hall, List.perm_middle.nodup_iff, List.nodup_cons, List.mem_append, not_or] at hnd
  have hother : ∀ l : List QueueName, name ∉ l →
      l.flatMap (d.setQueue name q).packetsOf = l.flatMap d.packetsOf := by
    intro l hl
    refine List.flatMap_congr fun x hx => ?_
    have hne : x ≠ name := by
      rintro rfl
      exact hl hx
    rw [packetsOf_setQueue, if_neg hne]
  unfold backlog
  rw [hall, List.flatMap_append, List.flatMap_append, List.flatMap_cons, List.flatMap_cons,
    hother pre hnd.1.1, hother post hnd.1.2, packetsOf_setQueue, if_pos rfl, h, List.append_assoc]
  show (out ++ (pre.flatMap d.packetsOf ++ (q.packets ++ _))).Perm _
  exact List.perm_append_comm_assoc ..

/-! ### The selection -/

theorem idle_none : d.idle none = true := rfl

/-- The tries end with a queue that has packets, or with none left. -/
theorem select_spec (random : Nat → Nat) (n : Nat) (q : Option QueueName) :
    (d.select random n q).2 = 0 ∨ d.idle (d.select random n q).1 = false := by
  induction n generalizing q with
  | zero => exact .inl rfl
  | succ n ih =>
    unfold select
    by_cases h : d.idle q = true
    · rw [if_pos h]
      exact ih _
    · rw [if_neg h]
      exact .inr (Bool.eq_false_iff.2 h)

/-- Only if no queue but `ef` has packets, none is selected. -/
theorem selectQueue_idle {random : Nat → Nat} (h : d.idle (d.selectQueue random) = true)
    (hef : d.packetsOf .ef = []) : d.backlog = [] := by
  unfold selectQueue at h
  dsimp only at h
  by_cases hzero : (d.select random 50 none).2 = 0
  · rw [if_pos hzero] at h
    cases hfind : qArray.find? fun name => !d.idle (some name) with
    | none =>
      rw [backlog_eq_nil]
      intro name
      by_cases hname : name ∈ qArray
      · have hidle := List.find?_eq_none.1 hfind name hname
        rw [← idle_some_iff]
        simpa using hidle
      · rcases List.mem_append.1 (mem_allQueues name) with hmem | hmem
        · exact absurd hmem hname
        · rw [List.mem_singleton.1 hmem]
          exact hef
    | some name =>
      have hbusy := List.find?_some hfind
      rw [hfind] at h
      rw [h] at hbusy
      exact absurd hbusy Bool.false_ne_true
  · rw [if_neg hzero, (select_spec random 50 none).resolve_left hzero] at h
    exact absurd h Bool.false_ne_true

/-- Where `nc` goes before `be`, it has packets as well. -/
theorem giveChance_spec (hnc : (d.queue .nc).isSome) (hbusy : d.packetsOf name ≠ []) :
    ∃ name', d.giveChance params name = .ok name' ∧ d.packetsOf name' ≠ [] := by
  unfold giveChance
  by_cases hbe : name = .be
  · obtain ⟨nc, hnc⟩ := Option.isSome_iff_exists.1 hnc
    rw [if_pos hbe, hnc]
    dsimp only
    by_cases hempty : nc.isEmpty
    · rw [if_pos hempty]
      exact ⟨name, rfl, hbusy⟩
    · have hncBusy : d.packetsOf .nc ≠ [] := by
        rw [packetsOf_of_queue hnc]
        exact fun h => hempty (nc.isEmpty_iff.2 h)
      obtain ⟨nc_pkt, hnext⟩ : ∃ p, nc.getNext = some p := by
        rw [packetsOf_of_queue hnc] at hncBusy
        exact ⟨_, List.head?_eq_some_head hncBusy⟩
      obtain ⟨pkt, hhead⟩ : ∃ p, (d.queue .be).bind DSQueue.getNext = some p := by
        rw [hbe] at hbusy
        unfold packetsOf at hbusy
        cases hq : d.queue .be with
        | none =>
          rw [hq] at hbusy
          exact absurd rfl hbusy
        | some q =>
          rw [hq] at hbusy
          exact ⟨_, List.head?_eq_some_head hbusy⟩
      rw [if_neg hempty, hhead, hnext]
      dsimp only
      split
      · exact ⟨.nc, rfl, hncBusy⟩
      · exact ⟨name, rfl, hbusy⟩
  · rw [if_neg hbe]
    exact ⟨name, rfl, hbusy⟩

/-! ### Serving -/

/-- What one call hands out: the first packet of some queue, and no packet is lost. -/
def Serves (d : DsI) (out : Option Packet) (d' : DsI) : Prop :=
  (out.toList ++ d'.backlog).Perm d.backlog ∧ (out = none ↔ d.backlog = [])

/-- A queue that has packets is served. -/
theorem serve_spec (hbusy : d.packetsOf name ≠ [])
    (hlen : ∀ pkt ∈ d.backlog, pkt.ether_type = 0x0800 → pkt.ip_len.toNat ≤ 1500) :
    ∃ out d', d.serve name = .ok (out, d') ∧ Serves d out d' := by
  cases hq : d.queue name with
  | none =>
    unfold packetsOf at hbusy
    rw [hq] at hbusy
    exact absurd rfl hbusy
  | some q =>
    rw [packetsOf_of_queue hq] at hbusy
    obtain ⟨pkt, rest, hpackets⟩ := List.exists_cons_of_ne_nil hbusy
    have hmem : pkt ∈ d.backlog := by
      refine List.mem_flatMap.2 ⟨name, mem_allQueues name, ?_⟩
      rw [packetsOf_of_queue hq, hpackets]
      exact List.mem_cons_self
    obtain ⟨hout, hrest⟩ := DSQueue.dequeue_addAccount hpackets (hlen pkt hmem)
    refine ⟨_, _, by rw [serve, hq], ?_, ?_⟩
    · refine backlog_setQueue ?_
      rw [packetsOf_of_queue hq, hpackets, hout, hrest]
      rfl
    · rw [hout]
      exact ⟨fun h => (nomatch h), fun h => absurd (h ▸ hmem) List.not_mem_nil⟩

/-- **Service.** The search over the queues serves a packet when there is one. -/
theorem serveNext_spec {random : Nat → Nat} (hnc : (d.queue .nc).isSome) (hrate : 0 < d.qRate 5)
    (hef : d.packetsOf .ef = [])
    (hlen : ∀ pkt ∈ d.backlog, pkt.ether_type = 0x0800 → pkt.ip_len.toNat ≤ 1500) :
    ∃ out d', d.serveNext params random = .ok (out, d') ∧ Serves d out d' := by
  unfold serveNext
  rw [if_neg (Int.ne_of_gt hrate)]
  by_cases hidle : d.idle (d.selectQueue random) = true
  · have hnil := selectQueue_idle hidle hef
    rw [if_pos hidle]
    exact ⟨none, d, rfl, List.Perm.refl _, fun _ => hnil, fun _ => rfl⟩
  · rw [if_neg hidle]
    cases hsel : d.selectQueue random with
    | none =>
      rw [hsel] at hidle
      exact absurd idle_none hidle
    | some name =>
      rw [hsel, idle_some_iff] at hidle
      obtain ⟨name', hchance, hbusy⟩ := @giveChance_spec params d name hnc hidle
      dsimp only
      rw [hchance]
      exact @serve_spec { d with cntQue := some name' } name' hbusy hlen

/-- A queue that `cntQue` points to is there. -/
def Configured (d : DsI) : Prop := ∀ name, d.cntQue = some name → (d.queue name).isSome

/-- **Step lemma.** One call hands out one packet, or none is queued. -/
theorem intrq_spec {random : Nat → Nat} (hcnt : d.Configured) (hnc : (d.queue .nc).isSome)
    (hrate : 0 < d.qRate 5)
    (hlen : ∀ pkt ∈ d.backlog, pkt.ether_type = 0x0800 → pkt.ip_len.toNat ≤ 1500) :
    ∃ out d', d.intrq params random = .ok (out, d') ∧ Serves d out d' := by
  unfold intrq
  by_cases hef : d.idle (some .ef) = true
  · rw [if_neg (not_not.2 hef)]
    rw [idle_some_iff] at hef
    cases hc : d.cntQue with
    | none => exact serveNext_spec hnc hrate hef hlen
    | some name =>
      obtain ⟨q, hq⟩ := Option.isSome_iff_exists.1 (hcnt name hc)
      have hpackets := q.dequeue_packets
      dsimp only
      rw [hq]
      dsimp only
      cases hdeq : q.dequeue with
      | mk out q' =>
        rw [hdeq] at hpackets
        have hperm : (out.toList ++ (d.setQueue name q').backlog).Perm d.backlog :=
          backlog_setQueue (by rw [packetsOf_of_queue hq]; exact hpackets)
        cases out with
        | some pkt =>
          refine ⟨some pkt, _, rfl, hperm, fun h => (nomatch h), fun hnil => ?_⟩
          rw [hnil] at hperm
          exact absurd hperm.eq_nil (List.cons_ne_nil _ _)
        | none =>
          -- the queue cannot pay, or it is empty: another one is selected
          have hsame : ∀ name', (d.setQueue name q').packetsOf name' = d.packetsOf name' := by
            intro name'
            rw [packetsOf_setQueue]
            by_cases heq : name' = name
            · rw [if_pos heq, heq, packetsOf_of_queue hq]
              exact hpackets.symm
            · rw [if_neg heq]
          have hnc' : ((d.setQueue name q').queue .nc).isSome := by
            unfold setQueue
            dsimp only
            by_cases heq : QueueName.nc = name
            · rw [← heq, Function.update_self]
              rfl
            · rw [Function.update_of_ne heq]
              exact hnc
          have hback : (d.setQueue name q').backlog = d.backlog :=
            List.flatMap_congr fun name' _ => hsame name'
          have hnext := @serveNext_spec params { d.setQueue name q' with cntQue := none } random hnc'
            hrate ((hsame .ef).trans hef) (by
              intro pkt hpkt
              exact hlen pkt (hback ▸ hpkt))
          obtain ⟨out, d', hrun, hserves⟩ := hnext
          refine ⟨out, d', hrun, ?_⟩
          have hback' : ({ d.setQueue name q' with cntQue := none } : DsI).backlog = d.backlog := hback
          unfold Serves at hserves
          rw [hback'] at hserves
          exact hserves
  · rw [if_pos hef]
    exact serve_spec (fun h => hef (idle_some_iff.2 h)) hlen

end DsI

/-! ### Runs -/

namespace DsI

/-- Replacing a queue configures no queue away. -/
theorem isSome_setQueue {name' : QueueName} (h : (d.queue name').isSome) :
    ((d.setQueue name q).queue name').isSome := by
  unfold setQueue
  dsimp only
  by_cases heq : name' = name
  · rw [heq, Function.update_self]
    rfl
  · rw [Function.update_of_ne heq]
    exact h

theorem Configured.setQueue (h : d.Configured) (name : QueueName) (q : DSQueue) :
    (d.setQueue name q).Configured := fun name' hc => isSome_setQueue (h name' hc)

/-- Storing a served queue keeps the configuration. -/
theorem Configured.keep (h : d.Configured) (name : QueueName) (q : Option DSQueue) :
    (d.keep name q).2.Configured := by
  cases q with
  | none => exact h
  | some q => exact h.setQueue name q

/-- A send keeps the configuration. -/
theorem send_configured {qfull : Bool} {now : UInt64} {random : Nat} {fate : Fate}
    (h : d.Configured) (hsend : d.send params qfull now random pkt = .ok (fate, d')) :
    d'.Configured := by
  have hkeep : ∀ name q, (.ok (d.keep name q) : Except Halt _) = .ok (fate, d') → d'.Configured := by
    intro name q heq
    have hk := h.keep name q
    rw [Except.ok.inj heq] at hk
    exact hk
  have hsame : (.ok (.passedOn, d) : Except Halt _) = .ok (fate, d') → d'.Configured := by
    intro heq
    rw [← (Prod.mk.inj (Except.ok.inj heq)).2]
    exact h
  simp only [send] at hsend
  split at hsend
  · split at hsend
    · split at hsend
      · cases hsend
      · exact hkeep _ _ hsend
    · exact hsame hsend
  · split at hsend
    · split at hsend
      all_goals
        split at hsend
        · cases hsend
        · exact hkeep _ _ hsend
    · exact hsame hsend

/-- A service keeps the configuration. -/
theorem serve_configured {out : Option Packet} (h : d.cntQue = some name ∨ d.Configured)
    (hserve : d.serve name = .ok (out, d')) : d'.Configured := by
  unfold serve at hserve
  cases hq : d.queue name with
  | none =>
    rw [hq] at hserve
    cases hserve
  | some q =>
    rw [hq] at hserve
    rw [← (Prod.mk.inj (Except.ok.inj hserve)).2]
    rcases h with hc | h
    · intro name' hc'
      have heq : name = name' := Option.some.inj (hc.symm.trans hc')
      subst heq
      unfold setQueue
      dsimp only
      rw [Function.update_self]
      rfl
    · exact h.setQueue name _

/-- The search over the queues keeps the configuration. -/
theorem serveNext_configured {random : Nat → Nat} {out : Option Packet} (h : d.Configured)
    (hserve : d.serveNext params random = .ok (out, d')) : d'.Configured := by
  have hsame : (.ok (none, d) : Except Halt _) = .ok (out, d') → d'.Configured := by
    intro heq
    rw [← (Prod.mk.inj (Except.ok.inj heq)).2]
    exact h
  unfold serveNext at hserve
  split at hserve
  · cases hserve
  · split at hserve
    · exact hsame hserve
    · split at hserve
      · exact hsame hserve
      · split at hserve
        · cases hserve
        · exact serve_configured (.inl rfl) hserve

/-- `intrq` keeps the configuration. -/
theorem intrq_configured {random : Nat → Nat} {out : Option Packet} (h : d.Configured)
    (hintrq : d.intrq params random = .ok (out, d')) : d'.Configured := by
  unfold intrq at hintrq
  split at hintrq
  · exact serve_configured (.inr h) hintrq
  · split at hintrq
    · exact serveNext_configured h hintrq
    next name hc =>
      split at hintrq
      · cases hintrq
      next q hq =>
        split at hintrq
        next q' hdeq =>
          rw [← (Prod.mk.inj (Except.ok.inj hintrq)).2]
          exact h.setQueue name _
        next q' hdeq =>
          refine serveNext_configured ?_ hintrq
          intro name' hc'
          cases hc'

/-- **Step.** Every input keeps the configuration. -/
theorem step_configured (d : DsI) (input : Input) (d' : DsI) (h : d.Configured)
    (hstep : d.step params input = .ok d') : d'.Configured := by
  cases input with
  | send qfull now random pkt =>
    have hsend : Prod.snd <$> d.send params qfull now random pkt = .ok d' := hstep
    obtain ⟨r, hr, rfl⟩ := of_map_eq_ok hsend
    exact send_configured h hr
  | intrq random =>
    have hintrq : Prod.snd <$> d.intrq params random = .ok d' := hstep
    obtain ⟨r, hr, rfl⟩ := of_map_eq_ok hintrq
    exact intrq_configured h hr

/-- **Work conservation.** In every state that a run reaches, one call of `intrq` hands out exactly one
    packet if one is queued, and none otherwise. -/
theorem intrq_conserves_work {queue : QueueName → Option DSQueue} {inputs : List Input}
    (hrun : Run.exec (step params) (init queue) inputs = .ok d) (hnc : (d.queue .nc).isSome)
    (hrate : 0 < d.qRate 5)
    (hlen : ∀ pkt ∈ d.backlog, pkt.ether_type = 0x0800 → pkt.ip_len.toNat ≤ 1500)
    (random : Nat → Nat) :
    ∃ out d', d.intrq params random = .ok (out, d') ∧
      (out.toList ++ d'.backlog).Perm d.backlog ∧ (out = none ↔ d.backlog = []) := by
  have hinit : (init queue).Configured := fun name hc => nomatch hc
  have hreach := (Always.of_step step_configured hinit inputs).exec hrun
  exact intrq_spec hreach hnc hrate hlen

/-- The queues that there always are. -/
def plainQueues (name : QueueName) : Option DSQueue :=
  if name = .be ∨ name = .nc then some ⟨50, 1, 0, [], ⟨0, 0, 0⟩, Nat.zero_le _⟩ else none

/-- An IP packet and one that is not, queued while the module below is full. -/
def twoSends : List Input :=
  [.send true 5 0 ⟨1, 0x0800, 0, 1500, 0⟩, .send true 6 0 ⟨2, 0x0806, 0, 0, 0⟩]

/-- Times are compared as they are, and nothing is dropped early. -/
def plainParams : DsParams where
  later a b := b < a
  drop_high _ _ _ _ := false
  drop_low _ _ _ _ _ := false

/-- Two packets wait, and one of them leaves. -/
theorem intrq_conserves_work_two :
    ∃ d, Run.exec (step plainParams) (init plainQueues) twoSends = .ok d ∧ d.backlog.length = 2 ∧
      ∃ out d', d.intrq plainParams (fun _ => 0) = .ok (out, d') ∧
        (out.toList ++ d'.backlog).Perm d.backlog ∧ (out = none ↔ d.backlog = []) := by
  have hseen : (Run.exec (step plainParams) (init plainQueues) twoSends).map
      (fun d => ((d.queue .nc).isSome, d.qRate 5, d.backlog)) =
        .ok (true, 2, [⟨1, 0x0800, 0, 1500, 5⟩, ⟨2, 0x0806, 0, 0, 6⟩]) := by decide +kernel
  obtain ⟨d, hrun, hd⟩ := Run.exec_map hseen
  obtain ⟨hnc, hd⟩ := Prod.mk.inj hd
  obtain ⟨hrate, hback⟩ := Prod.mk.inj hd
  refine ⟨d, hrun, by rw [hback]; rfl, ?_⟩
  refine intrq_conserves_work hrun hnc (by rw [hrate]; decide) ?_ _
  rw [hback]
  decide

end DsI

end Ds
