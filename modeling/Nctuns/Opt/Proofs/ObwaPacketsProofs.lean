import Mathlib.Algebra.BigOperators.Group.List.Basic
import Mathlib.Data.List.Infix
import Mathlib.Data.List.Nodup
import Mathlib.Data.List.Perm.Basic
import Nctuns.Opt.Obwa

/-!
# Packets at an edge node

As long as announcements go through, each packet is in one place, each burst carries what has been
announced, and each buffer with packets waits for an event.
-/

namespace Opt

theorem i32_of_bounds {z : Int} (h : 0 ≤ z) (h' : z < 2 ^ 31) : i32 z = z := by
  unfold i32
  rw [Int.bmod_eq_of_le] <;> omega

namespace Obwa

variable {c : Config} {s s' t u : Obwa} {k l : Control} {goal next seq : Nat} {p pkt : Pkt}
  {pre post pkts : List Pkt}

/-! ## Lengths and logs -/

@[simp] theorem bytes_nil : bytes [] = 0 := rfl

@[simp] theorem bytes_cons : bytes (p :: pkts) = p.len + bytes pkts := by
  simp [bytes]

@[simp] theorem bytes_append : bytes (pre ++ post) = bytes pre + bytes post := by
  simp [bytes]

/-- Lengths are not negative. -/
theorem bytes_nonneg (pkts : List Pkt) : 0 ≤ bytes pkts := by
  induction pkts with
  | nil => exact le_rfl
  | cons p pkts ih =>
    rw [bytes_cons]
    omega

/-- Packets have a length. -/
theorem bytes_pos (hpos : ∀ p ∈ pkts, 0 < p.len) (h : pkts ≠ []) : 0 < bytes pkts := by
  cases pkts with
  | nil => exact absurd rfl h
  | cons p pkts =>
    have hp := hpos p List.mem_cons_self
    have hpkts := bytes_nonneg pkts
    rw [bytes_cons]
    omega

@[simp] theorem packetsTo_append (log log' : List (Nat × Pkt)) :
    packetsTo next (log ++ log') = packetsTo next log ++ packetsTo next log' := by
  simp [packetsTo]

/-- The packets of one destination. -/
@[simp] theorem packetsTo_self : packetsTo next (pkts.map fun p => (next, p)) = pkts := by
  induction pkts with
  | nil => rfl
  | cons p pkts ih =>
    rw [packetsTo] at ih
    simp [packetsTo, ih]

theorem packetsTo_of_ne (h : goal ≠ next) : packetsTo next (pkts.map fun p => (goal, p)) = [] := by
  simp [packetsTo, h]

/-! ## The loop of `release_buffer` -/

/-- The loop has scheduled the packets `pre` as the burst `seq` and left the packets `post`. -/
structure Sent (seq goal : Nat) (pre post : List Pkt) (start done : Sending) : Prop where
  stopped : done.stopped = true
  temp : done.temp = post
  num : done.send_packet_num = start.send_packet_num + pre.length
  count : done.send_count = start.send_count + bytes pre
  scheduled : ∃ new, done.scheduled = start.scheduled ++ new ∧
    new.map (fun x => (x.dstIP, x.pkt)) = pre.map (fun p => (goal, p)) ∧ ∀ x ∈ new, x.SEQ = seq

/-- Packets of positive length up to the announced length are sent exactly. -/
theorem sendLoop_sent {start : Sending} {wave length : Int} (hpre : pre ≠ [])
    (hpos : ∀ p ∈ pre, 0 < p.len) (hsum : start.send_count + bytes pre = length) :
    Sent seq goal pre post start (s.sendLoop c seq goal length wave start (pre ++ post)) := by
  induction pre generalizing start with
  | nil => exact absurd rfl hpre
  | cons p pre ih =>
    rw [List.cons_append, sendLoop]
    rw [bytes_cons] at hsum
    cases pre with
    | nil =>
      have hreached : (s.sendOne c seq goal wave start p ([] ++ post)).send_count ≥ length := by
        simp only [sendOne]
        simp only [bytes_nil] at hsum
        omega
      simp only [if_pos hreached]
      refine ⟨rfl, rfl, rfl, ?_, _, rfl, rfl, ?_⟩
      · simp [sendOne]
      · intro x hx
        obtain rfl := List.mem_singleton.1 hx
        rfl
    | cons q pre =>
      have hpos' : ∀ r ∈ q :: pre, 0 < r.len := fun r hr => hpos r (List.mem_cons_of_mem p hr)
      have hrest : 0 < bytes (q :: pre) := bytes_pos hpos' (by simp)
      set one := s.sendOne c seq goal wave start p (q :: pre ++ post) with hone
      have hcount : one.send_count = start.send_count + p.len := rfl
      have hshort : ¬ one.send_count ≥ length := by omega
      simp only [if_neg hshort]
      have hsent : Sent seq goal (q :: pre) post one (s.sendLoop c seq goal length wave one (q :: pre ++ post)) :=
        ih (by simp) hpos' (by omega)
      obtain ⟨new, hnew, hmap, hseq⟩ := hsent.scheduled
      refine ⟨hsent.stopped, hsent.temp, ?_, ?_, ?_⟩
      · have hnum : one.send_packet_num = start.send_packet_num + 1 := rfl
        rw [hsent.num, hnum, List.length_cons, List.length_cons, List.length_cons]
        omega
      · have htotal : bytes (p :: q :: pre) = p.len + bytes (q :: pre) := bytes_cons
        rw [hsent.count, hcount, htotal]
        omega
      · simp only [hone, sendOne, List.append_assoc] at hnew
        refine ⟨_, hnew, ?_, ?_⟩
        · rw [List.map_append, hmap]
          rfl
        · intro x hx
          rcases List.mem_append.1 hx with hx | hx
          · obtain rfl := List.mem_singleton.1 hx
            rfl
          · exact hseq x hx

/-! ## The invariant -/

/-- A buffer without its timer. -/
def Buffer_list.stopped (ptr : Buffer_list) : Buffer_list := { ptr with AssembleTimer_active_seq := 0 }

/-- The pending `release_buffer` events. -/
def releases (s : Obwa) : List Event := s.pending.filter fun e => e.goal?.isSome

/-- The destinations of the releases that are pending. -/
theorem releasing_eq (s : Obwa) : s.releasing = s.releases.filterMap Event.goal? := by
  unfold releasing releases
  rw [List.filterMap_filter]
  refine List.filterMap_congr ?_
  intro e _
  cases e <;> rfl

theorem mem_releases {e : Event} : e ∈ s.releases ↔ e ∈ s.pending ∧ e.goal?.isSome := by
  simp [releases]

/-- The burst of a control packet is in front of its buffer. -/
structure Waiting (c : Config) (s : Obwa) (k : Control) : Prop where
  pending : .release_buffer k.SEQ k.dstIP k.r_dur k.WAVE ∈ s.pending
  hop : 0 < c.wave k.dstIP
  wave : u8 k.WAVE ≠ 0
  unsent : s.burstOf k.SEQ = []
  front : ∃ pre post, s.heldFor k.dstIP = pre ++ post ∧ pre ≠ [] ∧ bytes pre = k.r_dur

/-- What holds of the packets in every state, also while a buffer is changed. -/
structure Sound (c : Config) (s : Obwa) : Prop where
  once : ∀ next, (packetsTo next s.given).Perm
    (s.heldFor next ++ (s.scheduledTo next ++ packetsTo next s.freed))
  inOrder : ∀ next, (s.scheduledTo next ++ s.heldFor next).Sublist (packetsTo next s.given)
  ofBurst : ∀ x ∈ s.scheduled, ∃ k ∈ s.controls, k.SEQ = x.SEQ ∧ k.dstIP = x.dstIP
  counted : ∀ next, ∀ ptr ∈ s.Buffer next,
    ptr.packet_length = bytes ptr.pkts ∧ ptr.entity_num = ptr.pkts.length
  announced : ∀ k ∈ s.controls, Waiting c s k ∨ bytes (s.burstOf k.SEQ) = k.r_dur
  release : ∀ e ∈ s.releases,
    ∃ k ∈ s.controls, Waiting c s k ∧ e = .release_buffer k.SEQ k.dstIP k.r_dur k.WAVE
  one : s.releasing.Nodup
  active : ∀ next, ∀ ptr ∈ s.Buffer next, ptr.AssembleTimer_active_seq ≠ 0 →
    .send_control_packet next ptr.AssembleTimer_active_seq ∈ s.pending
  lens : ∀ next, ∀ p ∈ s.heldFor next, 0 < p.len
  bound : ∀ next, bytes (s.heldFor next) < 2 ^ 31
  seqs : (s.controls.map Control.SEQ).Nodup
  fresh : ∀ k ∈ s.controls, k.SEQ < s.Send_seq

/-- The invariant gives the account of the packets. -/
theorem Sound.assembled (h : Sound c s) (hattended : ∀ next, s.heldFor next ≠ [] → s.Attended next) :
    Assembled s := by
  refine ⟨h.once, h.inOrder, h.ofBurst, h.counted, ?_, hattended⟩
  intro k hk
  rcases h.announced k hk with hwait | hsent
  · exact Or.inl hwait.pending
  · exact Or.inr hsent

theorem Waiting.releasing (h : Waiting c s k) : k.dstIP ∈ s.releasing :=
  List.mem_filterMap.2 ⟨_, h.pending, rfl⟩

/-- More packets may join behind the announced ones. -/
theorem Waiting.grow (h : Waiting c s k)
    (hpending : .release_buffer k.SEQ k.dstIP k.r_dur k.WAVE ∈ s'.pending)
    (hburst : s'.burstOf k.SEQ = s.burstOf k.SEQ) (hheld : s.heldFor k.dstIP <+: s'.heldFor k.dstIP) :
    Waiting c s' k := by
  obtain ⟨pre, post, heq, hpre, hbytes⟩ := h.front
  obtain ⟨more, hmore⟩ := hheld
  refine ⟨hpending, h.hop, h.wave, hburst.trans h.unsent, pre, post ++ more, ?_, hpre, hbytes⟩
  rw [← hmore, heq, List.append_assoc]

/-! ## Timers -/

/-- The packets and bursts are the same. -/
structure SamePackets (s s' : Obwa) : Prop where
  stopped : ∀ n, (s'.Buffer n).map Buffer_list.stopped = (s.Buffer n).map Buffer_list.stopped
  releases : s'.releases = s.releases
  given : s'.given = s.given
  controls : s'.controls = s.controls
  scheduled : s'.scheduled = s.scheduled
  freed : s'.freed = s.freed
  Send_seq : s.Send_seq ≤ s'.Send_seq

theorem SamePackets.heldFor (h : SamePackets s s') (n : Nat) : s'.heldFor n = s.heldFor n := by
  have hpkts := congrArg (Option.map Buffer_list.pkts) (h.stopped n)
  rw [Option.map_map, Option.map_map] at hpkts
  exact congrArg (fun o => o.getD []) hpkts

/-- An announced burst waits on. -/
theorem SamePackets.waiting (h : SamePackets s s') (hk : Waiting c s k) : Waiting c s' k := by
  refine hk.grow ?_ ?_ ?_
  · have hmem := mem_releases.2 ⟨hk.pending, rfl⟩
    rw [← h.releases] at hmem
    exact (mem_releases.1 hmem).1
  · unfold burstOf
    rw [h.scheduled]
  · rw [h.heldFor]

/-- A change of the timers alone. -/
theorem Sound.same (h : Sound c s) (hs : SamePackets s s')
    (hactive : ∀ next, ∀ ptr ∈ s'.Buffer next, ptr.AssembleTimer_active_seq ≠ 0 →
      .send_control_packet next ptr.AssembleTimer_active_seq ∈ s'.pending) : Sound c s' := by
  have hscheduled : ∀ n, s'.scheduledTo n = s.scheduledTo n := by
    intro n
    unfold scheduledTo
    rw [hs.scheduled]
  refine ⟨?_, ?_, ?_, ?_, ?_, ?_, ?_, hactive, ?_, ?_, ?_, ?_⟩
  · intro n
    rw [hs.given, hs.freed, hs.heldFor, hscheduled]
    exact h.once n
  · intro n
    rw [hs.given, hs.heldFor, hscheduled]
    exact h.inOrder n
  · rw [hs.scheduled, hs.controls]
    exact h.ofBurst
  · intro n ptr hptr
    have hstopped := hs.stopped n
    rw [Option.mem_def.1 hptr] at hstopped
    obtain ⟨ptr', hptr', heq⟩ := Option.map_eq_some_iff.1 hstopped.symm
    have hcounted := h.counted n ptr' hptr'
    obtain ⟨hnum, -, hlength, hpkts⟩ := Buffer_list.mk.inj heq
    rwa [hlength, hnum, hpkts] at hcounted
  · intro k hk
    rw [hs.controls] at hk
    rcases h.announced k hk with hwait | hsent
    · exact Or.inl (hs.waiting hwait)
    · right
      rw [← hsent]
      unfold burstOf
      rw [hs.scheduled]
  · intro e he
    rw [hs.releases] at he
    obtain ⟨k, hk, hwait, heq⟩ := h.release e he
    rw [hs.controls]
    exact ⟨k, hk, hs.waiting hwait, heq⟩
  · rw [releasing_eq, hs.releases, ← releasing_eq]
    exact h.one
  · intro n
    rw [hs.heldFor]
    exact h.lens n
  · intro n
    rw [hs.heldFor]
    exact h.bound n
  · rw [hs.controls]
    exact h.seqs
  · intro k hk
    rw [hs.controls] at hk
    exact Nat.lt_of_lt_of_le (h.fresh k hk) hs.Send_seq

theorem map_stopped_setActive (s : Obwa) (goal seq n : Nat) :
    ((s.setActive goal seq).Buffer n).map Buffer_list.stopped = (s.Buffer n).map Buffer_list.stopped := by
  by_cases hn : n = goal
  · subst hn
    simp only [setActive, put, Function.update_self, Option.map_map]
    rfl
  · simp only [setActive, put, Function.update_of_ne hn]

/-- The timer is one more event. -/
theorem pending_run (s : Obwa) (goal : Nat) : (s.Set_AssembleTimer_run_goallist c goal).pending =
    s.pending ++ [.send_control_packet goal (s.AssembleTimer_seqnum + 1)] := by
  simp [pending, Set_AssembleTimer_run_goallist]

/-- A timer is started. -/
theorem Sound.run (h : Sound c s) : Sound c (s.Set_AssembleTimer_run_goallist c next) := by
  have hpending := pending_run (c := c) s next
  refine h.same ⟨map_stopped_setActive s next _, ?_, rfl, rfl, rfl, rfl, le_rfl⟩ ?_
  · unfold releases
    rw [hpending, List.filter_append]
    simp [Event.goal?]
  · intro n ptr hptr hne
    rw [hpending]
    by_cases hn : n = next
    · subst hn
      simp only [Set_AssembleTimer_run_goallist, setActive, put, Function.update_self,
        Option.mem_def] at hptr
      obtain ⟨ptr', -, rfl⟩ := Option.map_eq_some_iff.1 hptr
      exact List.mem_append_right _ (List.mem_singleton_self _)
    · simp only [Set_AssembleTimer_run_goallist, setActive, put, Function.update_of_ne hn] at hptr
      exact List.mem_append_left _ (h.active n ptr hptr hne)

/-! ## Packets come and go -/

/-- A buffer that is replaced. -/
theorem heldFor_put_self (s : Obwa) (goal : Nat) (ptr : Option Buffer_list) :
    (s.put goal ptr).heldFor goal = (ptr.map Buffer_list.pkts).getD [] := by
  simp [heldFor, put]

/-- The other buffers. -/
theorem heldFor_put_of_ne {n : Nat} (s : Obwa) (ptr : Option Buffer_list) (h : n ≠ goal) :
    (s.put goal ptr).heldFor n = s.heldFor n := by
  simp [heldFor, put, Function.update_of_ne h]

theorem buffer_put_of_ne {n : Nat} (s : Obwa) (ptr : Option Buffer_list) (h : n ≠ goal) :
    (s.put goal ptr).Buffer n = s.Buffer n := Function.update_of_ne h _ _

/-- The packet joins the end of the buffer. -/
theorem added_pkts (s : Obwa) (pkt : Pkt) (next : Nat) : (s.added pkt next).pkts = s.heldFor next ++ [pkt] := by
  unfold added addto_list heldFor
  cases s.Buffer next <;> rfl

/-- The counts of the buffer follow its packets. -/
theorem Sound.added_counted (h : Sound c s) (hbound : bytes (s.heldFor next) + pkt.len < 2 ^ 31) :
    (s.added pkt next).packet_length = bytes (s.heldFor next ++ [pkt]) ∧
      (s.added pkt next).entity_num = (s.heldFor next ++ [pkt]).length := by
  have hnonneg := bytes_nonneg (s.heldFor next)
  have hold : ((s.Buffer next).getD add_new_list).packet_length = bytes (s.heldFor next) ∧
      ((s.Buffer next).getD add_new_list).entity_num = (s.heldFor next).length := by
    unfold heldFor
    cases hptr : s.Buffer next with
    | none => exact ⟨rfl, rfl⟩
    | some ptr => exact h.counted next ptr hptr
  refine ⟨?_, ?_⟩
  · simp only [added, addto_list, hold.1, bytes_append, bytes_cons, bytes_nil]
    rw [i32_of_bounds (by omega) (by omega)]
    omega
  · simp only [added, addto_list, hold.2, List.length_append, List.length_singleton]
    push_cast
    rfl

/-- A packet is given to `send` and put into its buffer. -/
theorem Sound.arrive (h : Sound c s) (hpos : 0 < pkt.len)
    (hbound : bytes (s.heldFor next) + pkt.len < 2 ^ 31) :
    Sound c ({ s with given := s.given ++ [(next, pkt)] }.put next (some (s.added pkt next))) := by
  set u : Obwa := { s with given := s.given ++ [(next, pkt)] }
  set s' := u.put next (some (s.added pkt next))
  have hself : s'.heldFor next = s.heldFor next ++ [pkt] := by
    rw [heldFor_put_self]
    exact added_pkts s pkt next
  have hother : ∀ n, n ≠ next → s'.heldFor n = s.heldFor n := fun n hn => heldFor_put_of_ne u _ hn
  have hgiven : ∀ n, n ≠ next → packetsTo n s'.given = packetsTo n s.given := by
    intro n hn
    have hnone : packetsTo n ([pkt].map fun p => (next, p)) = [] := packetsTo_of_ne (Ne.symm hn)
    rw [List.map_singleton] at hnone
    show packetsTo n (s.given ++ [(next, pkt)]) = _
    rw [packetsTo_append, hnone, List.append_nil]
  have hgiven_self : packetsTo next s'.given = packetsTo next s.given ++ [pkt] := by
    show packetsTo next (s.given ++ [(next, pkt)]) = _
    rw [packetsTo_append]
    simp [packetsTo]
  have hpre : ∀ n, s.heldFor n <+: s'.heldFor n := by
    intro n
    by_cases hn : n = next
    · rw [hn, hself]
      exact List.prefix_append _ _
    · rw [hother n hn]
  refine ⟨?_, ?_, h.ofBurst, ?_, ?_, ?_, h.one, ?_, ?_, ?_, h.seqs, h.fresh⟩
  · intro n
    by_cases hn : n = next
    · subst hn
      rw [hgiven_self, hself]
      refine ((h.once n).append_right [pkt]).trans ?_
      rw [List.append_assoc (s.heldFor n), List.append_assoc (s.heldFor n)]
      exact List.Perm.append_left _ List.perm_append_comm
    · rw [hgiven n hn, hother n hn]
      exact h.once n
  · intro n
    by_cases hn : n = next
    · subst hn
      rw [hgiven_self, hself, ← List.append_assoc]
      exact (h.inOrder n).append (List.Sublist.refl _)
    · rw [hgiven n hn, hother n hn]
      exact h.inOrder n
  · intro n ptr hptr
    by_cases hn : n = next
    · subst hn
      rw [Option.mem_def, show s'.Buffer n = _ from Function.update_self ..] at hptr
      obtain rfl := Option.some.inj hptr
      rw [added_pkts]
      exact h.added_counted hbound
    · rw [Option.mem_def, show s'.Buffer n = s.Buffer n from buffer_put_of_ne u _ hn] at hptr
      exact h.counted n ptr hptr
  · intro k hk
    rcases h.announced k hk with hwait | hsent
    · exact Or.inl (hwait.grow hwait.pending rfl (hpre _))
    · exact Or.inr hsent
  · intro e he
    obtain ⟨k, hk, hwait, heq⟩ := h.release e he
    exact ⟨k, hk, hwait.grow hwait.pending rfl (hpre _), heq⟩
  · intro n ptr hptr hne
    by_cases hn : n = next
    · subst hn
      rw [Option.mem_def, show s'.Buffer n = _ from Function.update_self ..] at hptr
      obtain rfl := Option.some.inj hptr
      cases hold : s.Buffer n with
      | none =>
        simp only [added, addto_list, hold] at hne
        exact absurd rfl hne
      | some ptr =>
        simp only [added, addto_list, hold] at hne ⊢
        exact h.active n ptr hold hne
    · rw [Option.mem_def, show s'.Buffer n = s.Buffer n from buffer_put_of_ne u _ hn] at hptr
      exact h.active n ptr hptr hne
  · intro n p hp
    by_cases hn : n = next
    · subst hn
      rw [hself] at hp
      rcases List.mem_append.1 hp with hp | hp
      · exact h.lens n p hp
      · obtain rfl := List.mem_singleton.1 hp
        exact hpos
    · rw [hother n hn] at hp
      exact h.lens n p hp
  · intro n
    by_cases hn : n = next
    · subst hn
      rw [hself, bytes_append, bytes_cons, bytes_nil, add_zero]
      exact hbound
    · rw [hother n hn]
      exact h.bound n

/-- A buffer without a pending release is deleted. -/
theorem Sound.delete (h : Sound c s) (hrel : next ∉ s.releasing) : Sound c (s.delete_buffer next) := by
  unfold delete_buffer
  cases hbuffer : s.Buffer next with
  | none => exact h
  | some ptr =>
    have hheld : s.heldFor next = ptr.pkts := by
      unfold heldFor
      rw [hbuffer]
      rfl
    show Sound c { s.put next none with freed := s.freed ++ ptr.pkts.map fun p => (next, p) }
    set s' : Obwa := { s.put next none with freed := s.freed ++ ptr.pkts.map fun p => (next, p) }
    have hself : s'.heldFor next = [] := heldFor_put_self s next none
    have hother : ∀ n, n ≠ next → s'.heldFor n = s.heldFor n := fun n hn => heldFor_put_of_ne s _ hn
    have hwaits : ∀ k, Waiting c s k → Waiting c s' k := by
      intro k hk
      have hne : k.dstIP ≠ next := fun heq => hrel (heq ▸ hk.releasing)
      refine hk.grow hk.pending rfl ?_
      rw [hother _ hne]
    have hempty : ∀ n, ∀ ptr' ∈ s'.Buffer n, n ≠ next ∧ ptr' ∈ s.Buffer n := by
      intro n ptr' hptr'
      by_cases hn : n = next
      · subst hn
        rw [Option.mem_def, show s'.Buffer n = none from Function.update_self ..] at hptr'
        cases hptr'
      · rw [Option.mem_def, show s'.Buffer n = s.Buffer n from buffer_put_of_ne s _ hn] at hptr'
        exact ⟨hn, hptr'⟩
    refine ⟨?_, ?_, h.ofBurst, ?_, ?_, ?_, h.one, ?_, ?_, ?_, h.seqs, h.fresh⟩
    · intro n
      show List.Perm _ (_ ++ (s.scheduledTo n ++ packetsTo n (s.freed ++ ptr.pkts.map fun p => (next, p))))
      rw [packetsTo_append]
      by_cases hn : n = next
      · subst hn
        rw [hself, packetsTo_self, List.nil_append, ← List.append_assoc, ← hheld]
        exact (h.once n).trans List.perm_append_comm
      · rw [hother n hn, packetsTo_of_ne (Ne.symm hn), List.append_nil]
        exact h.once n
    · intro n
      by_cases hn : n = next
      · subst hn
        rw [hself]
        exact ((List.sublist_append_left _ _).append_left _).trans (h.inOrder n)
      · rw [hother n hn]
        exact h.inOrder n
    · intro n ptr' hptr'
      exact h.counted n ptr' (hempty n ptr' hptr').2
    · intro k hk
      rcases h.announced k hk with hwait | hsent
      · exact Or.inl (hwaits k hwait)
      · exact Or.inr hsent
    · intro e he
      obtain ⟨k, hk, hwait, heq⟩ := h.release e he
      exact ⟨k, hk, hwaits k hwait, heq⟩
    · intro n ptr' hptr' hne
      exact h.active n ptr' (hempty n ptr' hptr').2 hne
    · intro n p hp
      by_cases hn : n = next
      · subst hn
        rw [hself] at hp
        cases hp
      · rw [hother n hn] at hp
        exact h.lens n p hp
    · intro n
      by_cases hn : n = next
      · subst hn
        rw [hself]
        decide
      · rw [hother n hn]
        exact h.bound n

/-! ## Announcements -/

/-- Other buffers are the same, and no event is gone. -/
structure Local (next : Nat) (s s' : Obwa) : Prop where
  Buffer : ∀ n, n ≠ next → s'.Buffer n = s.Buffer n
  pending : s.pending ⊆ s'.pending

theorem Local.refl (next : Nat) (s : Obwa) : Local next s s := ⟨fun _ _ => rfl, List.Subset.refl _⟩

theorem Local.trans (h : Local next s s') (h' : Local next s' t) : Local next s t :=
  ⟨fun n hn => (h'.Buffer n hn).trans (h.Buffer n hn), List.Subset.trans h.pending h'.pending⟩

/-- No release is taken back. -/
theorem Local.releasing (h : Local next s s') : s.releasing ⊆ s'.releasing := by
  intro n hn
  obtain ⟨e, he, hgoal⟩ := List.mem_filterMap.1 hn
  exact List.mem_filterMap.2 ⟨e, h.pending he, hgoal⟩

/-- The other buffers are attended to as before. -/
theorem Local.attended (h : Local next s s')
    (hothers : ∀ n, n ≠ next → s.heldFor n ≠ [] → s.Attended n) :
    ∀ n, n ≠ next → s'.heldFor n ≠ [] → s'.Attended n := by
  intro n hn hheld
  unfold heldFor at hheld
  rw [h.Buffer n hn] at hheld
  rcases hothers n hn hheld with ⟨ptr, hptr, hne, hmem⟩ | hrel
  · left
    rw [← h.Buffer n hn] at hptr
    exact ⟨ptr, hptr, hne, h.pending hmem⟩
  · exact Or.inr (h.releasing hrel)

/-- A buffer is deleted. -/
theorem local_delete (s : Obwa) (next : Nat) : Local next s (s.delete_buffer next) := by
  unfold delete_buffer
  cases s.Buffer next with
  | none => exact Local.refl next s
  | some ptr => exact ⟨fun _ hn => buffer_put_of_ne s none hn, List.Subset.refl _⟩

/-- A timer is started. -/
theorem local_run (s : Obwa) (next : Nat) : Local next s (s.Set_AssembleTimer_run_goallist c next) := by
  refine ⟨?_, ?_⟩
  · intro n hn
    exact buffer_put_of_ne s _ hn
  · rw [pending_run]
    exact List.subset_append_left _ _

/-- A buffer that is deleted holds nothing. -/
theorem heldFor_delete (s : Obwa) (next : Nat) : (s.delete_buffer next).heldFor next = [] := by
  unfold delete_buffer
  cases hbuffer : s.Buffer next with
  | none =>
    unfold heldFor
    rw [hbuffer]
    rfl
  | some ptr => exact heldFor_put_self s next none

/-- A buffer has a length where it holds packets. -/
theorem Sound.heldFor_ne_nil (h : Sound c s) {ptr : Buffer_list} (hptr : s.Buffer next = some ptr) :
    ptr.packet_length ≠ 0 ↔ s.heldFor next ≠ [] := by
  have hheld : s.heldFor next = ptr.pkts := by
    unfold heldFor
    rw [hptr]
    rfl
  have hlens := h.lens next
  rw [hheld] at hlens ⊢
  rw [(h.counted next ptr hptr).1]
  constructor
  · intro hne heq
    rw [heq] at hne
    exact hne rfl
  · intro hne
    exact (bytes_pos hlens hne).ne'

/-- A burst is announced. -/
theorem Sound.accept (h : Sound c s) (hSEQ : k.SEQ = s.Send_seq) (hr_dur : k.r_dur = bytes (s.heldFor k.dstIP))
    (hheld : s.heldFor k.dstIP ≠ []) (hhop : 0 < c.wave k.dstIP) (hwave : u8 k.WAVE ≠ 0)
    (hrel : k.dstIP ∉ s.releasing) (hcontrols : s'.controls = s.controls ++ [k])
    (hpending : s'.pending = s.pending ++ [.release_buffer k.SEQ k.dstIP k.r_dur k.WAVE])
    (hBuffer : s'.Buffer = s.Buffer) (hgiven : s'.given = s.given) (hscheduled : s'.scheduled = s.scheduled)
    (hfreed : s'.freed = s.freed) (hseq : s'.Send_seq = s.Send_seq + 1) : Sound c s' := by
  have hheldFor : ∀ n, s'.heldFor n = s.heldFor n := by
    intro n
    unfold heldFor
    rw [hBuffer]
  have hscheduledTo : ∀ n, s'.scheduledTo n = s.scheduledTo n := by
    intro n
    unfold scheduledTo
    rw [hscheduled]
  have hburst : ∀ seq, s'.burstOf seq = s.burstOf seq := by
    intro seq
    unfold burstOf
    rw [hscheduled]
  have hold : s.pending ⊆ s'.pending := by
    rw [hpending]
    exact List.subset_append_left _ _
  have hwaits : ∀ l, Waiting c s l → Waiting c s' l := by
    intro l hl
    refine hl.grow (hold hl.pending) (hburst _) ?_
    rw [hheldFor]
  have hnew : Waiting c s' k := by
    refine ⟨?_, hhop, hwave, ?_, s.heldFor k.dstIP, [], ?_, hheld, hr_dur.symm⟩
    · rw [hpending]
      exact List.mem_append_right _ (List.mem_singleton_self _)
    · rw [hburst]
      unfold burstOf
      rw [List.map_eq_nil_iff, List.filter_eq_nil_iff]
      intro x hx
      obtain ⟨l, hl, hlx, -⟩ := h.ofBurst x hx
      have hlt := h.fresh l hl
      rw [decide_eq_true_iff]
      omega
    · rw [hheldFor, List.append_nil]
  refine ⟨?_, ?_, ?_, ?_, ?_, ?_, ?_, ?_, ?_, ?_, ?_, ?_⟩
  · intro n
    rw [hgiven, hfreed, hheldFor, hscheduledTo]
    exact h.once n
  · intro n
    rw [hgiven, hheldFor, hscheduledTo]
    exact h.inOrder n
  · intro x hx
    rw [hscheduled] at hx
    rw [hcontrols]
    obtain ⟨l, hl, hlx⟩ := h.ofBurst x hx
    exact ⟨l, List.mem_append_left _ hl, hlx⟩
  · rw [hBuffer]
    exact h.counted
  · intro l hl
    rw [hcontrols] at hl
    rcases List.mem_append.1 hl with hl | hl
    · rcases h.announced l hl with hwait | hsent
      · exact Or.inl (hwaits l hwait)
      · right
        rw [hburst]
        exact hsent
    · obtain rfl := List.mem_singleton.1 hl
      exact Or.inl hnew
  · intro e he
    unfold releases at he
    rw [hpending, List.filter_append] at he
    rw [hcontrols]
    rcases List.mem_append.1 he with he | he
    · obtain ⟨l, hl, hwait, heq⟩ := h.release e he
      exact ⟨l, List.mem_append_left _ hl, hwaits l hwait, heq⟩
    · obtain rfl := List.mem_singleton.1 (List.mem_of_mem_filter he)
      exact ⟨k, List.mem_append_right _ (List.mem_singleton_self k), hnew, rfl⟩
  · unfold Obwa.releasing
    rw [hpending, List.filterMap_append]
    refine List.nodup_append.2 ⟨h.one, List.nodup_singleton _, ?_⟩
    intro x hx y hy hxy
    obtain rfl : y = k.dstIP := by simpa [Event.goal?] using hy
    exact hrel (hxy ▸ hx)
  · intro n ptr hptr hne
    rw [hBuffer] at hptr
    exact hold (h.active n ptr hptr hne)
  · intro n
    rw [hheldFor]
    exact h.lens n
  · intro n
    rw [hheldFor]
    exact h.bound n
  · rw [hcontrols, List.map_append]
    refine List.nodup_append.2 ⟨h.seqs, List.nodup_singleton _, ?_⟩
    intro x hx y hy
    obtain ⟨l, hl, rfl⟩ := List.mem_map.1 hx
    obtain rfl := List.mem_singleton.1 hy
    have hlt := h.fresh l hl
    omega
  · intro l hl
    rw [hcontrols] at hl
    rw [hseq]
    rcases List.mem_append.1 hl with hl | hl
    · exact Nat.lt_succ_of_lt (h.fresh l hl)
    · obtain rfl := List.mem_singleton.1 hl
      omega

/-- A burst is announced on a wavelength. -/
theorem Sound.hop (h : Sound c s) (hrel : next ∈ s.releasing) : 0 < c.wave next := by
  rw [releasing_eq] at hrel
  obtain ⟨e, he, hgoal⟩ := List.mem_filterMap.1 hrel
  obtain ⟨k, -, hwait, rfl⟩ := h.release e he
  obtain rfl := Option.some.inj hgoal
  exact hwait.hop

/-- An announcement that goes through leaves the buffer to an event or is made `again`. -/
theorem Sound.announce (h : Sound c s) {again : Prop} (hkeep : s.heldFor next ≠ [] → s.Announces c next again) :
    Sound c (s.announce c next) ∧ Local next s (s.announce c next) ∧
      ((s.announce c next).heldFor next ≠ [] → next ∈ (s.announce c next).releasing ∨ again) := by
  unfold Obwa.announce
  cases hbuffer : s.Buffer next with
  | none =>
    refine ⟨h, Local.refl next s, ?_⟩
    intro hne
    unfold heldFor at hne
    rw [hbuffer] at hne
    exact absurd rfl hne
  | some ptr =>
    have hne_iff := h.heldFor_ne_nil hbuffer
    have hcounted := (h.counted next ptr hbuffer).1
    have hheld : s.heldFor next = ptr.pkts := by
      unfold heldFor
      rw [hbuffer]
      rfl
    simp only
    split_ifs with havail hlen hwave hpath
    · refine ⟨h, Local.refl next s, ?_⟩
      intro hne
      exact absurd hlen (hne_iff.2 hne)
    · refine ⟨h.delete ?_, local_delete s next, ?_⟩
      · intro hrel
        have hpos := h.hop hrel
        omega
      · intro hne
        exact absurd (heldFor_delete s next) hne
    · refine ⟨?_, ⟨fun _ _ => rfl, List.Subset.refl _⟩, ?_⟩
      · exact h.same ⟨fun _ => rfl, rfl, rfl, rfl, rfl, rfl, Nat.le_succ _⟩ h.active
      · intro hne
        have hgo := hkeep hne
        unfold Announces at hgo
        rw [if_pos havail] at hgo
        have hgo := hgo (by omega)
        rw [if_neg (by omega)] at hgo
        exact Or.inr hgo
    · have hne := hne_iff.1 hlen
      have hgo := hkeep hne
      unfold Announces at hgo
      rw [if_pos havail] at hgo
      have hgo := hgo (by omega)
      rw [if_pos (by omega)] at hgo
      have hhop : 0 < c.wave next := by omega
      refine ⟨?_, ⟨fun _ _ => rfl, ?_⟩, ?_⟩
      · refine h.accept (k := ⟨next, s.Send_seq, c.RWA_get_wave next, ptr.packet_length, c.wave next, _⟩) rfl
          ?_ hne hhop hgo.2 hgo.1 rfl ?_ rfl rfl rfl rfl rfl
        · rw [hcounted, hheld]
        · simp [pending]
      · simp only [pending, List.map_append]
        exact List.subset_append_left _ _
      · intro _
        left
        simp [releasing, pending, Event.goal?]
    · refine ⟨h, Local.refl next s, ?_⟩
      intro hne
      have hgo := hkeep hne
      unfold Announces at hgo
      rwa [if_neg havail] at hgo

/-! ## Calls of `send` -/

/-- A buffer that gets a timer is attended. -/
theorem attended_run (h : (s.Set_AssembleTimer_run_goallist c next).heldFor next ≠ []) :
    (s.Set_AssembleTimer_run_goallist c next).Attended next := by
  left
  have hbuffer : (s.Set_AssembleTimer_run_goallist c next).Buffer next = (s.Buffer next).map fun ptr =>
      { ptr with AssembleTimer_active_seq := s.AssembleTimer_seqnum + 1 } := by
    simp [Set_AssembleTimer_run_goallist, setActive, put]
  cases hptr : s.Buffer next with
  | none =>
    unfold heldFor at h
    rw [hbuffer, hptr] at h
    exact absurd rfl h
  | some ptr =>
    rw [hptr] at hbuffer
    refine ⟨_, hbuffer, Nat.succ_ne_zero _, ?_⟩
    rw [pending_run]
    exact List.mem_append_right _ (List.mem_singleton_self _)

/-- `putinto_buffer` for a packet that makes the buffer large enough. -/
theorem putinto_buffer_overflow (hover : (s.added pkt next).packet_length > c.Send_packet_length) :
    s.putinto_buffer c pkt next = announce c { s.put next (some (s.added pkt next).stopped) with
      AssembleTimer_seqnum := s.AssembleTimer_seqnum + 1 } next := by
  unfold putinto_buffer send_control_packet
  rw [if_pos hover, if_neg]
  · simp [Set_AssembleTimer_stop_goallist, setActive, put, Buffer_list.stopped]
  · rw [not_not]
    exact ⟨_, by simp [Set_AssembleTimer_stop_goallist, setActive, put]; rfl, rfl⟩

/-- `putinto_buffer` for a packet just given to `send`: a buffer with a running timer stays attended. -/
theorem Sound.putinto_buffer (h : Sound c s) (hkeep : s.SendKeeps c pkt next)
    (hs' : s' = Obwa.putinto_buffer c { s with given := s.given ++ [(next, pkt.headed)] } pkt.headed next) :
    Sound c s' ∧ Local next s s' ∧
      (s.Is_AssembleTimer_running_goallist next → s'.heldFor next ≠ [] → s'.Attended next) := by
  obtain ⟨hbound, hkeep⟩ := hkeep
  set u : Obwa := { s with given := s.given ++ [(next, pkt.headed)] }
  have hpos : 0 < pkt.headed.len := Nat.add_pos_right _ (by decide)
  have harrive : Sound c (u.put next (some (u.added pkt.headed next))) := h.arrive hpos hbound
  have hlocal : ∀ ptr, Local next s (u.put next ptr) := by
    intro ptr
    exact ⟨fun _ hn => buffer_put_of_ne u ptr hn, List.Subset.refl _⟩
  by_cases hover : (s.added pkt.headed next).packet_length > c.Send_packet_length
  · rw [if_pos hover] at hkeep
    have hover : (u.added pkt.headed next).packet_length > c.Send_packet_length := hover
    rw [putinto_buffer_overflow hover] at hs'
    set w : Obwa := { u.put next (some (u.added pkt.headed next).stopped) with
      AssembleTimer_seqnum := u.AssembleTimer_seqnum + 1 } with hw
    have hstopped : Sound c w := by
      refine harrive.same ⟨?_, rfl, rfl, rfl, rfl, rfl, le_rfl⟩ ?_
      · intro n
        by_cases hn : n = next
        · subst hn
          simp [hw, put, Buffer_list.stopped]
        · simp [hw, put, Function.update_of_ne hn]
      · intro n ptr hptr hne
        by_cases hn : n = next
        · subst hn
          rw [Option.mem_def, show w.Buffer n = _ from Function.update_self ..] at hptr
          obtain rfl := Option.some.inj hptr
          exact absurd rfl hne
        · rw [Option.mem_def, show w.Buffer n = s.Buffer n from buffer_put_of_ne u _ hn] at hptr
          exact h.active n ptr hptr hne
    have hwlocal : Local next s w := ⟨fun _ hn => buffer_put_of_ne u _ hn, List.Subset.refl _⟩
    have hgo : w.heldFor next ≠ [] → w.Announces c next ¬ s.Is_AssembleTimer_running_goallist next :=
      fun _ => hkeep
    obtain ⟨hsound, hannounce, hwaits⟩ := hstopped.announce hgo
    rw [hs']
    refine ⟨hsound, hwlocal.trans hannounce, ?_⟩
    intro hrunning hne
    rcases hwaits hne with hrel | hagain
    · exact Or.inr hrel
    · exact absurd hrunning hagain
  · rw [if_neg hover] at hkeep
    have hput : s' = if (s.added pkt.headed next).packet_length > c.Drop_packet_length then
        (u.put next (some (u.added pkt.headed next))).delete_buffer next
        else u.put next (some (u.added pkt.headed next)) := by
      rw [hs', Obwa.putinto_buffer]
      exact if_neg hover
    rw [hput]
    split_ifs with hdrop
    · refine ⟨harrive.delete (hkeep hdrop), (hlocal _).trans (local_delete _ next), ?_⟩
      intro _ hne
      exact absurd (heldFor_delete _ next) hne
    · refine ⟨harrive, hlocal _, ?_⟩
      rintro ⟨ptr, hptr, hactive⟩ _
      left
      have hsame : (u.added pkt.headed next).AssembleTimer_active_seq = ptr.AssembleTimer_active_seq := by
        simp [added, addto_list, u, Option.mem_def.1 hptr]
      refine ⟨u.added pkt.headed next, Function.update_self .., ?_, ?_⟩
      · rwa [hsame]
      · rw [hsame]
        exact h.active next ptr hptr hactive

/-- A call of `send`. -/
theorem Sound.send (h : Sound c s) (hattended : ∀ n, s.heldFor n ≠ [] → s.Attended n)
    (hkeep : s.SendKeeps c pkt next) :
    Sound c (s.send c pkt next) ∧ ∀ n, (s.send c pkt next).heldFor n ≠ [] → (s.send c pkt next).Attended n := by
  obtain ⟨hsound, hlocal, hwaits⟩ := h.putinto_buffer hkeep rfl
  have hothers : ∀ n, n ≠ next → s.heldFor n ≠ [] → s.Attended n := fun n _ => hattended n
  by_cases hrunning : s.Is_AssembleTimer_running_goallist next
  · have hsend : s.send c pkt next =
        Obwa.putinto_buffer c { s with given := s.given ++ [(next, pkt.headed)] } pkt.headed next :=
      if_pos hrunning
    rw [hsend]
    refine ⟨hsound, ?_⟩
    intro n hne
    by_cases hn : n = next
    · subst hn
      exact hwaits hrunning hne
    · exact hlocal.attended hothers n hn hne
  · have hsend : s.send c pkt next = Set_AssembleTimer_run_goallist c
        (Obwa.putinto_buffer c { s with given := s.given ++ [(next, pkt.headed)] } pkt.headed next) next :=
      if_neg hrunning
    rw [hsend]
    refine ⟨hsound.run, ?_⟩
    intro n hne
    by_cases hn : n = next
    · subst hn
      exact attended_run hne
    · exact (hlocal.trans (local_run _ next)).attended hothers n hn hne

/-! ## Events that happen -/

/-- One event is gone. -/
structure Fired (e : Event) (s u : Obwa) : Prop where
  pending : ∃ before after, s.pending = before ++ e :: after ∧ u.pending = before ++ after
  Buffer : u.Buffer = s.Buffer
  WAT : u.WAT = s.WAT
  given : u.given = s.given
  controls : u.controls = s.controls
  scheduled : u.scheduled = s.scheduled
  freed : u.freed = s.freed
  Send_seq : u.Send_seq = s.Send_seq

/-- An event happens, and is no more pending. -/
theorem fired_eraseIdx {i time : Nat} {e : Event} (he : s.events[i]? = some (time, e)) :
    Fired e s { s with events := s.events.eraseIdx i } := by
  refine ⟨?_, rfl, rfl, rfl, rfl, rfl, rfl, rfl⟩
  obtain ⟨hlt, hget⟩ := List.getElem?_eq_some_iff.1 he
  refine ⟨(s.events.take i).map Prod.snd, (s.events.drop (i + 1)).map Prod.snd, ?_, ?_⟩
  · have hsplit := List.take_append_drop i s.events
    rw [List.drop_eq_getElem_cons hlt, hget] at hsplit
    unfold Obwa.pending
    conv_lhs => rw [← hsplit]
    simp
  · simp [Obwa.pending, List.eraseIdx_eq_take_drop_succ]

/-- The other events are still pending. -/
theorem Fired.mem {e e' : Event} {u : Obwa} (h : Fired e s u) (he' : e' ∈ s.pending) (hne : e' ≠ e) :
    e' ∈ u.pending := by
  obtain ⟨before, after, hs, hu⟩ := h.pending
  rw [hs] at he'
  rw [hu]
  simpa [hne] using he'

/-- No event is new. -/
theorem Fired.old {e e' : Event} {u : Obwa} (h : Fired e s u) (he' : e' ∈ u.pending) : e' ∈ s.pending := by
  obtain ⟨before, after, hs, hu⟩ := h.pending
  rw [hs]
  rw [hu] at he'
  rcases List.mem_append.1 he' with he' | he'
  · exact List.mem_append_left _ he'
  · exact List.mem_append_right _ (List.mem_cons_of_mem _ he')

/-- After a release no further one for the node is pending. -/
theorem Fired.releasing {e : Event} {u : Obwa} {n : Nat} (h : Fired e s u) (he : e.goal? = some n)
    (hone : s.releasing.Nodup) : n ∉ u.releasing ∧ u.releasing.Nodup := by
  obtain ⟨before, after, hs, hu⟩ := h.pending
  unfold Obwa.releasing at hone ⊢
  rw [hs, List.filterMap_append, List.filterMap_cons_some he, List.nodup_middle, List.nodup_cons] at hone
  rw [hu, List.filterMap_append]
  exact hone

/-- An event that is no release. -/
theorem Fired.releases {e : Event} {u : Obwa} (h : Fired e s u) (he : e.goal? = none) :
    u.releases = s.releases := by
  obtain ⟨before, after, hs, hu⟩ := h.pending
  unfold Obwa.releases
  rw [hs, hu]
  simp [he]

/-- The pending events of other buffers stay. -/
theorem Fired.attended {e : Event} {u v : Obwa} (h : Fired e s u) {n : Nat} (hbuffer : v.Buffer n = s.Buffer n)
    (hpending : v.pending = u.pending)
    (htimer : ∀ ptr ∈ s.Buffer n, e ≠ .send_control_packet n ptr.AssembleTimer_active_seq)
    (hgoal : e.goal? ≠ some n) (hn : s.Attended n) : v.Attended n := by
  rcases hn with ⟨ptr, hptr, hne, hmem⟩ | hrel
  · left
    have hkept := h.mem hmem (htimer ptr hptr).symm
    rw [← hbuffer] at hptr
    rw [← hpending] at hkept
    exact ⟨ptr, hptr, hne, hkept⟩
  · right
    obtain ⟨e', he', hgoal'⟩ := List.mem_filterMap.1 hrel
    refine List.mem_filterMap.2 ⟨e', ?_, hgoal'⟩
    rw [hpending]
    refine h.mem he' ?_
    intro heq
    rw [heq] at hgoal'
    exact hgoal hgoal'

/-- Whether an announcement goes through depends on the table and on the releases. -/
theorem announces_congr {again : Prop} (hWAT : s'.WAT = s.WAT) (hrel : s'.releasing = s.releasing) :
    s'.Announces c next again ↔ s.Announces c next again := by
  have havail : s'.Is_avail_wave c (c.wave next) (c.RWA_get_outputport next) ↔
      s.Is_avail_wave c (c.wave next) (c.RWA_get_outputport next) := by
    unfold Is_avail_wave
    rw [hWAT]
  unfold Announces
  rw [hrel]
  exact Iff.of_eq (if_congr havail rfl rfl)

/-- A timer event happens. -/
theorem Sound.send_control_packet {u : Obwa} (h : Sound c s)
    (hattended : ∀ n, s.heldFor n ≠ [] → s.Attended n) (hu : Fired (.send_control_packet next seq) s u)
    (hkeep : s.EventKeeps c (.send_control_packet next seq)) :
    Sound c (u.send_control_packet c next seq) ∧ ∀ n, (u.send_control_packet c next seq).heldFor n ≠ [] →
      (u.send_control_packet c next seq).Attended n := by
  by_cases hactive : u.Is_Active_AssembleTimer_event next seq
  · have hsend : u.send_control_packet c next seq = (u.setActive next 0).announce c next :=
      if_neg (not_not.2 hactive)
    rw [hsend]
    have hreleases : (u.setActive next 0).releases = s.releases := hu.releases rfl
    have hreleasing : (u.setActive next 0).releasing = s.releasing := by
      rw [releasing_eq, hreleases, ← releasing_eq]
    have hother : ∀ n, n ≠ next → (u.setActive next 0).Buffer n = s.Buffer n := by
      intro n hn
      rw [← hu.Buffer]
      exact buffer_put_of_ne u _ hn
    have hstopped : ∀ n, ((u.setActive next 0).Buffer n).map Buffer_list.stopped =
        (s.Buffer n).map Buffer_list.stopped := by
      intro n
      rw [map_stopped_setActive, hu.Buffer]
    have hsame : SamePackets s (u.setActive next 0) :=
      ⟨hstopped, hreleases, hu.given, hu.controls, hu.scheduled, hu.freed, hu.Send_seq.ge⟩
    have hsound : Sound c (u.setActive next 0) := by
      refine h.same hsame ?_
      intro n ptr hptr hne
      by_cases hn : n = next
      · subst hn
        simp only [setActive, put, Function.update_self, Option.mem_def] at hptr
        obtain ⟨ptr', -, rfl⟩ := Option.map_eq_some_iff.1 hptr
        exact absurd rfl hne
      · rw [hother n hn] at hptr
        refine hu.mem (h.active n ptr hptr hne) ?_
        intro heq
        exact hn (Event.send_control_packet.inj heq).1
    have hgo : (u.setActive next 0).heldFor next ≠ [] → (u.setActive next 0).Announces c next False := by
      intro hne
      rw [hsame.heldFor] at hne
      obtain ⟨ptr, hptr, hseq⟩ := hactive
      rw [hu.Buffer] at hptr
      have hdue : s.Due next seq := ⟨ptr, hptr, hseq, (h.heldFor_ne_nil hptr).2 hne⟩
      have hgo : s.Announces c next False := hkeep hdue
      exact (announces_congr hu.WAT hreleasing).2 hgo
    obtain ⟨hannounced, hlocal, hwaits⟩ := hsound.announce hgo
    refine ⟨hannounced, ?_⟩
    intro n hne
    by_cases hn : n = next
    · subst hn
      rcases hwaits hne with hrel | hfalse
      · exact Or.inr hrel
      · exact hfalse.elim
    · refine hlocal.attended ?_ n hn hne
      intro m hm hheld
      rw [hsame.heldFor] at hheld
      refine hu.attended (hother m hm) rfl ?_ (by simp [Event.goal?]) (hattended m hheld)
      intro ptr _ heq
      exact hm (Event.send_control_packet.inj heq).1.symm
  · have hsend : u.send_control_packet c next seq = u := if_pos hactive
    rw [hsend]
    have htimer : ∀ n, ∀ ptr ∈ s.Buffer n,
        Event.send_control_packet next seq ≠ .send_control_packet n ptr.AssembleTimer_active_seq := by
      intro n ptr hptr heq
      obtain ⟨rfl, rfl⟩ := Event.send_control_packet.inj heq
      rw [← hu.Buffer] at hptr
      exact hactive ⟨ptr, hptr, rfl⟩
    have hsame : SamePackets s u :=
      ⟨fun n => by rw [hu.Buffer], hu.releases rfl, hu.given, hu.controls, hu.scheduled, hu.freed,
        hu.Send_seq.ge⟩
    refine ⟨h.same hsame ?_, ?_⟩
    · intro n ptr hptr hne
      rw [hu.Buffer] at hptr
      exact hu.mem (h.active n ptr hptr hne) (htimer n ptr hptr).symm
    · intro n hne
      rw [hsame.heldFor] at hne
      exact hu.attended (by rw [hu.Buffer]) rfl (htimer n) (by simp [Event.goal?]) (hattended n hne)

/-! ## Bursts that leave -/

/-- The burst of `k` has left the front of its buffer. -/
structure Left (s : Obwa) (k : Control) (pre post : List Pkt) (s' : Obwa) : Prop where
  held : s.heldFor k.dstIP = pre ++ post
  others : ∀ n, n ≠ k.dstIP → s'.Buffer n = s.Buffer n
  buffer : ∃ ptr ptr', s.Buffer k.dstIP = some ptr ∧ s'.Buffer k.dstIP = some ptr' ∧ ptr'.pkts = post ∧
    ptr'.packet_length = bytes post ∧ ptr'.entity_num = post.length ∧
    ptr'.AssembleTimer_active_seq = ptr.AssembleTimer_active_seq
  scheduled : ∃ new, s'.scheduled = s.scheduled ++ new ∧
    new.map (fun x => (x.dstIP, x.pkt)) = pre.map (fun p => (k.dstIP, p)) ∧ ∀ x ∈ new, x.SEQ = k.SEQ
  given : s'.given = s.given
  controls : s'.controls = s.controls
  freed : s'.freed = s.freed
  Send_seq : s'.Send_seq = s.Send_seq

/-- The packets of the burst leave the buffer. -/
theorem Left.heldFor_self (h : Left s k pre post s') : s'.heldFor k.dstIP = post := by
  obtain ⟨ptr, ptr', -, hptr', hpkts, -⟩ := h.buffer
  unfold heldFor
  rw [hptr']
  exact hpkts

theorem Left.heldFor_of_ne (h : Left s k pre post s') {n : Nat} (hn : n ≠ k.dstIP) :
    s'.heldFor n = s.heldFor n := by
  unfold heldFor
  rw [h.others n hn]

/-- The packets of the burst are on their way. -/
theorem Left.scheduledTo_self (h : Left s k pre post s') :
    s'.scheduledTo k.dstIP = s.scheduledTo k.dstIP ++ pre := by
  obtain ⟨new, hnew, hmap, -⟩ := h.scheduled
  unfold scheduledTo
  rw [hnew, List.map_append, hmap, packetsTo_append, packetsTo_self]

theorem Left.scheduledTo_of_ne (h : Left s k pre post s') {n : Nat} (hn : n ≠ k.dstIP) :
    s'.scheduledTo n = s.scheduledTo n := by
  obtain ⟨new, hnew, hmap, -⟩ := h.scheduled
  unfold scheduledTo
  rw [hnew, List.map_append, hmap, packetsTo_append, packetsTo_of_ne hn.symm, List.append_nil]

/-- The packets of the burst are those of its control packet. -/
theorem Left.burstOf_self (h : Left s k pre post s') : s'.burstOf k.SEQ = s.burstOf k.SEQ ++ pre := by
  obtain ⟨new, hnew, hmap, hseq⟩ := h.scheduled
  have hall : new.filter (fun x => x.SEQ = k.SEQ) = new := by
    refine List.filter_eq_self.2 ?_
    intro x hx
    simpa using hseq x hx
  have hpkts : new.map Scheduled.pkt = pre := by
    have hsnd := congrArg (List.map Prod.snd) hmap
    simpa [Function.comp_def] using hsnd
  unfold burstOf
  rw [hnew, List.filter_append, hall, List.map_append, hpkts]

theorem Left.burstOf_of_ne (h : Left s k pre post s') (hseq : seq ≠ k.SEQ) :
    s'.burstOf seq = s.burstOf seq := by
  obtain ⟨new, hnew, -, hnewseq⟩ := h.scheduled
  have hnone : new.filter (fun x => x.SEQ = seq) = [] := by
    refine List.filter_eq_nil_iff.2 ?_
    intro x hx
    simp only [hnewseq x hx, decide_eq_true_iff]
    exact hseq.symm
  unfold burstOf
  rw [hnew, List.filter_append, hnone, List.append_nil]

/-- Two control packets have different numbers. -/
theorem Sound.seq_ne (h : Sound c s) (hk : k ∈ s.controls) (hl : l ∈ s.controls) (hne : l ≠ k) :
    l.SEQ ≠ k.SEQ := by
  intro heq
  exact hne (List.inj_on_of_nodup_map h.seqs hl hk heq)

/-- The other announced bursts wait on. -/
theorem Left.waiting (hleft : Left s k pre post s') (h : Sound c s) (hk : k ∈ s.controls)
    (hu : Fired (.release_buffer k.SEQ k.dstIP k.r_dur k.WAVE) s u) (hpending : s'.pending = u.pending)
    (hl : l ∈ s.controls) (hne : l ≠ k) (hwait : Waiting c s l) : Waiting c s' l := by
  have hseq := h.seq_ne hk hl hne
  have hmem : .release_buffer l.SEQ l.dstIP l.r_dur l.WAVE ∈ u.pending := by
    refine hu.mem hwait.pending ?_
    intro heq
    exact hseq (Event.release_buffer.inj heq).1
  have hdst : l.dstIP ≠ k.dstIP := by
    intro heq
    exact (hu.releasing rfl h.one).1 (heq ▸ List.mem_filterMap.2 ⟨_, hmem, rfl⟩)
  refine hwait.grow (hpending ▸ hmem) (hleft.burstOf_of_ne hseq) ?_
  rw [hleft.heldFor_of_ne hdst]

/-- The packets of the burst move from the buffer to the schedule. -/
theorem Left.once (hleft : Left s k pre post s') (h : Sound c s) (n : Nat) :
    (packetsTo n s'.given).Perm (s'.heldFor n ++ (s'.scheduledTo n ++ packetsTo n s'.freed)) := by
  rw [hleft.given, hleft.freed]
  by_cases hn : n = k.dstIP
  · subst hn
    rw [hleft.heldFor_self, hleft.scheduledTo_self]
    refine (h.once _).trans ?_
    have hmove : (pre ++ (post ++ s.scheduledTo k.dstIP)).Perm (post ++ s.scheduledTo k.dstIP ++ pre) :=
      List.perm_append_comm
    have hmoved := hmove.append_right (packetsTo k.dstIP s.freed)
    rw [hleft.held]
    simpa only [List.append_assoc] using hmoved
  · rw [hleft.heldFor_of_ne hn, hleft.scheduledTo_of_ne hn]
    exact h.once n

/-- They leave in the order in which they came. -/
theorem Left.inOrder (hleft : Left s k pre post s') (h : Sound c s) (n : Nat) :
    (s'.scheduledTo n ++ s'.heldFor n).Sublist (packetsTo n s'.given) := by
  rw [hleft.given]
  by_cases hn : n = k.dstIP
  · subst hn
    rw [hleft.heldFor_self, hleft.scheduledTo_self, List.append_assoc, ← hleft.held]
    exact h.inOrder _
  · rw [hleft.heldFor_of_ne hn, hleft.scheduledTo_of_ne hn]
    exact h.inOrder n

/-- What is scheduled belongs to a control packet. -/
theorem Left.ofBurst (hleft : Left s k pre post s') (h : Sound c s) (hk : k ∈ s.controls) :
    ∀ x ∈ s'.scheduled, ∃ l ∈ s'.controls, l.SEQ = x.SEQ ∧ l.dstIP = x.dstIP := by
  intro x hx
  obtain ⟨new, hnew, hmap, hseq⟩ := hleft.scheduled
  rw [hnew] at hx
  rw [hleft.controls]
  rcases List.mem_append.1 hx with hx | hx
  · exact h.ofBurst x hx
  · refine ⟨k, hk, (hseq x hx).symm, ?_⟩
    have hdst : (x.dstIP, x.pkt) ∈ pre.map fun p => (k.dstIP, p) := by
      rw [← hmap]
      exact List.mem_map_of_mem hx
    obtain ⟨p, -, hp⟩ := List.mem_map.1 hdst
    exact (Prod.mk.inj hp).1

/-- What a buffer holds it held before. -/
theorem Left.heldFor_suffix (hleft : Left s k pre post s') (n : Nat) : s'.heldFor n <:+ s.heldFor n := by
  by_cases hn : n = k.dstIP
  · subst hn
    rw [hleft.heldFor_self, hleft.held]
    exact List.suffix_append pre post
  · rw [hleft.heldFor_of_ne hn]

/-- The counts of the buffers are right, and their timers run on. -/
theorem Left.buffers (hleft : Left s k pre post s') (h : Sound c s)
    (hu : Fired (.release_buffer k.SEQ k.dstIP k.r_dur k.WAVE) s u) (hpending : s'.pending = u.pending)
    (n : Nat) (b : Buffer_list) (hb : b ∈ s'.Buffer n) :
    (b.packet_length = bytes b.pkts ∧ b.entity_num = b.pkts.length) ∧
      (b.AssembleTimer_active_seq ≠ 0 → .send_control_packet n b.AssembleTimer_active_seq ∈ s'.pending) := by
  rw [hpending]
  by_cases hn : n = k.dstIP
  · subst hn
    obtain ⟨ptr, ptr', hptr, hptr', hpkts, hlength, hnum, hactive⟩ := hleft.buffer
    rw [Option.mem_def, hptr'] at hb
    obtain rfl := Option.some.inj hb
    rw [hpkts, hactive]
    exact ⟨⟨hlength, hnum⟩, fun hne => hu.mem (h.active _ ptr hptr hne) (by simp)⟩
  · rw [hleft.others n hn] at hb
    exact ⟨h.counted n b hb, fun hne => hu.mem (h.active n b hb hne) (by simp)⟩

/-- The burst of a control packet leaves. -/
theorem Sound.leave (h : Sound c s) (hk : k ∈ s.controls) (hwait : Waiting c s k)
    (hu : Fired (.release_buffer k.SEQ k.dstIP k.r_dur k.WAVE) s u) (hpending : s'.pending = u.pending)
    (hleft : Left s k pre post s') (hbytes : bytes pre = k.r_dur) : Sound c s' := by
  have hreleasing : s'.releasing = u.releasing := by
    unfold releasing
    rw [hpending]
  obtain ⟨hgone, hone⟩ := hu.releasing rfl h.one
  refine ⟨hleft.once h, hleft.inOrder h, hleft.ofBurst h hk,
    fun n b hb => (hleft.buffers h hu hpending n b hb).1, ?_, ?_, hreleasing ▸ hone,
    fun n b hb => (hleft.buffers h hu hpending n b hb).2, ?_, ?_, ?_, ?_⟩
  · intro l hl
    rw [hleft.controls] at hl
    by_cases hlk : l = k
    · subst hlk
      right
      rw [hleft.burstOf_self, hwait.unsent, List.nil_append]
      exact hbytes
    · rcases h.announced l hl with hl' | hsent
      · exact Or.inl (hleft.waiting h hk hu hpending hl hlk hl')
      · right
        rw [hleft.burstOf_of_ne (h.seq_ne hk hl hlk)]
        exact hsent
  · intro e he
    obtain ⟨he, hgoal⟩ := mem_releases.1 he
    rw [hpending] at he
    obtain ⟨l, hl, hl', rfl⟩ := h.release e (mem_releases.2 ⟨hu.old he, hgoal⟩)
    rw [hleft.controls]
    refine ⟨l, hl, hleft.waiting h hk hu hpending hl ?_ hl', rfl⟩
    intro hlk
    subst hlk
    exact hgone (List.mem_filterMap.2 ⟨_, he, rfl⟩)
  · intro n p hp
    exact h.lens n p ((hleft.heldFor_suffix n).subset hp)
  · intro n
    obtain ⟨front, hfront⟩ := hleft.heldFor_suffix n
    have hbound := h.bound n
    have hnonneg := bytes_nonneg front
    rw [← hfront, bytes_append] at hbound
    omega
  · rw [hleft.controls]
    exact h.seqs
  · rw [hleft.controls, hleft.Send_seq]
    exact h.fresh

/-- The buffer behind a loop that has sent `pre` holds `post`. -/
theorem Sent.left {done : Sending} {ptr : Buffer_list}
    (h : Sent seq goal pre post ⟨0, 0, [], ptr.pkts, false⟩ done) (hpkts : ptr.pkts = pre ++ post)
    (hlength : ptr.packet_length = bytes ptr.pkts) (hnum : ptr.entity_num = ptr.pkts.length)
    (hbound : bytes pre + bytes post < 2 ^ 31) :
    (ptr.left done).pkts = post ∧ (ptr.left done).packet_length = bytes post ∧
      (ptr.left done).entity_num = post.length := by
  have hnonneg := bytes_nonneg post
  have hnonneg' := bytes_nonneg pre
  have hcount : done.send_count = 0 + bytes pre := h.count
  have hsent : done.send_packet_num = 0 + pre.length := h.num
  refine ⟨h.temp, ?_, ?_⟩
  · simp only [Buffer_list.left, h.temp]
    split_ifs with hempty
    · rw [hempty]
      rfl
    · rw [hlength, hpkts, bytes_append, hcount]
      rw [i32_of_bounds (by omega) (by omega)]
      omega
  · simp only [Buffer_list.left, entitiesLeft, h.stopped, if_true, hnum, hpkts, List.length_append]
    omega

/-- A buffer is attended to while no event is lost. -/
theorem attended_mono {n : Nat} (hBuffer : s'.Buffer n = s.Buffer n) (hpending : s.pending ⊆ s'.pending)
    (h : s.Attended n) : s'.Attended n := by
  rcases h with ⟨ptr, hptr, hne, hmem⟩ | hrel
  · left
    rw [← hBuffer] at hptr
    exact ⟨ptr, hptr, hne, hpending hmem⟩
  · right
    obtain ⟨e, he, hgoal⟩ := List.mem_filterMap.1 hrel
    exact List.mem_filterMap.2 ⟨e, hpending he, hgoal⟩

/-- The end of a transmission is scheduled. -/
theorem Sound.send_release_wave {wave oport : Int} {delayTick : Nat} (h : Sound c s)
    (hattended : ∀ n, s.heldFor n ≠ [] → s.Attended n) :
    Sound c (s.Send_release_wave_Event wave oport delayTick seq) ∧
      ∀ n, (s.Send_release_wave_Event wave oport delayTick seq).heldFor n ≠ [] →
        (s.Send_release_wave_Event wave oport delayTick seq).Attended n := by
  have hpending : (s.Send_release_wave_Event wave oport delayTick seq).pending =
      s.pending ++ [.release_wave wave oport seq] := by
    simp [pending, Send_release_wave_Event]
  have hold : s.pending ⊆ (s.Send_release_wave_Event wave oport delayTick seq).pending := by
    rw [hpending]
    exact List.subset_append_left _ _
  refine ⟨?_, ?_⟩
  · refine h.same ⟨fun _ => rfl, ?_, rfl, rfl, rfl, rfl, le_rfl⟩ ?_
    · unfold releases
      rw [hpending, List.filter_append]
      simp [Event.goal?]
    · intro n ptr hptr hne
      exact hold (h.active n ptr hptr hne)
  · intro n hne
    exact attended_mono (s := s) rfl hold (hattended n hne)

/-- What is left of a buffer is attended. -/
theorem Sound.rearm (h : Sound c s) (hothers : ∀ n, n ≠ goal → s.heldFor n ≠ [] → s.Attended n) :
    Sound c (s.rearm c goal (s.heldFor goal)) ∧ ∀ n, (s.rearm c goal (s.heldFor goal)).heldFor n ≠ [] →
      (s.rearm c goal (s.heldFor goal)).Attended n := by
  unfold Obwa.rearm
  split_ifs with hdone
  · refine ⟨h, ?_⟩
    intro n hne
    by_cases hn : n = goal
    · subst hn
      rcases hdone with hempty | ⟨ptr, hptr, hactive⟩
      · exact absurd hempty hne
      · exact Or.inl ⟨ptr, hptr, hactive, h.active n ptr hptr hactive⟩
    · exact hothers n hn hne
  · refine ⟨h.run, ?_⟩
    intro n hne
    by_cases hn : n = goal
    · subst hn
      exact attended_run hne
    · exact (local_run s goal).attended hothers n hn hne

/-- A `release_buffer` event happens. -/
theorem Sound.release_buffer {u : Obwa} {sendlength wave : Int} (h : Sound c s)
    (hattended : ∀ n, s.heldFor n ≠ [] → s.Attended n)
    (hu : Fired (.release_buffer seq next sendlength wave) s u)
    (hs' : u.release_buffer c seq next sendlength wave = .ok s') :
    Sound c s' ∧ ∀ n, s'.heldFor n ≠ [] → s'.Attended n := by
  have hmem : Event.release_buffer seq next sendlength wave ∈ s.pending := by
    obtain ⟨before, after, hpending, -⟩ := hu.pending
    rw [hpending]
    exact List.mem_append_right _ List.mem_cons_self
  obtain ⟨k, hk, hwait, heq⟩ := h.release _ (mem_releases.2 ⟨hmem, rfl⟩)
  obtain ⟨rfl, rfl, rfl, rfl⟩ := Event.release_buffer.inj heq
  obtain ⟨pre, post, hheld, hpre, hbytes⟩ := hwait.front
  have hlens := h.lens k.dstIP
  have hbound := h.bound k.dstIP
  have hnonneg := bytes_nonneg post
  have hnonneg' := bytes_nonneg pre
  rw [hheld] at hlens hbound
  rw [bytes_append] at hbound
  obtain ⟨ptr, hptr, hpkts⟩ : ∃ ptr, s.Buffer k.dstIP = some ptr ∧ ptr.pkts = pre ++ post := by
    unfold heldFor at hheld
    cases hptr : s.Buffer k.dstIP with
    | none =>
      rw [hptr] at hheld
      exact absurd (List.append_eq_nil_iff.1 hheld.symm).1 hpre
    | some ptr =>
      rw [hptr] at hheld
      exact ⟨ptr, rfl, hheld⟩
  obtain ⟨hlength, hnum⟩ := h.counted _ ptr hptr
  have hnonzero : ¬ (ptr.pkts ≠ [] ∧ u8 k.WAVE ≤ 0) := by
    intro hzero
    exact hwait.wave (Nat.le_zero.1 hzero.2)
  unfold Obwa.release_buffer at hs'
  simp only [hu.Buffer, hptr, if_neg hnonzero] at hs'
  set done := u.sendLoop c k.SEQ k.dstIP k.r_dur k.WAVE ⟨0, 0, [], ptr.pkts, false⟩ ptr.pkts with hdone
  have hsent : Sent k.SEQ k.dstIP pre post ⟨0, 0, [], ptr.pkts, false⟩ done := by
    have hpos : ∀ p ∈ pre, 0 < p.len := fun p hp => hlens p (List.mem_append_left _ hp)
    have hloop : Sent k.SEQ k.dstIP pre post ⟨0, 0, [], ptr.pkts, false⟩
        (u.sendLoop c k.SEQ k.dstIP k.r_dur k.WAVE ⟨0, 0, [], ptr.pkts, false⟩ (pre ++ post)) :=
      sendLoop_sent hpre hpos (by rw [hbytes]; exact zero_add _)
    rwa [← hpkts] at hloop
  obtain ⟨hpkts', hlength', hnum'⟩ := hsent.left hpkts hlength hnum hbound
  set v : Obwa := { u.put k.dstIP (some (ptr.left done)) with scheduled := u.scheduled ++ done.scheduled }
  have hleft : Left s k pre post v := by
    refine ⟨hheld, ?_, ⟨ptr, ptr.left done, hptr, Function.update_self .., hpkts', hlength', hnum', rfl⟩, ?_,
      hu.given, hu.controls, hu.freed, hu.Send_seq⟩
    · intro n hn
      rw [← hu.Buffer]
      exact buffer_put_of_ne u _ hn
    · obtain ⟨new, hnew, hmap, hseq⟩ := hsent.scheduled
      refine ⟨new, ?_, hmap, hseq⟩
      rw [← hu.scheduled, ← List.nil_append new, ← hnew]
  have hv : Sound c v := h.leave hk hwait hu rfl hleft hbytes
  have hothers : ∀ n, n ≠ k.dstIP → v.heldFor n ≠ [] → v.Attended n := by
    intro n hn hne
    rw [hleft.heldFor_of_ne hn] at hne
    refine hu.attended (hleft.others n hn) rfl ?_ ?_ (hattended n hne)
    · intro ptr _ heq
      cases heq
    · intro hgoal
      exact hn (Option.some.inj hgoal).symm
  obtain ⟨hrearm, hattend⟩ := hv.rearm hothers
  rw [hleft.heldFor_self, ← hsent.temp] at hrearm hattend
  obtain rfl := Except.ok.inj hs'
  exact hrearm.send_release_wave hattend

/-! ## Runs -/

/-- An event that is no part of the assembly happens. -/
theorem Sound.unrelated {e : Event} {u : Obwa} (h : Sound c s) (hattended : ∀ n, s.heldFor n ≠ [] → s.Attended n)
    (hu : Fired e s u) (htimer : ∀ n seq, e ≠ .send_control_packet n seq) (hgoal : e.goal? = none)
    (hBuffer : s'.Buffer = u.Buffer) (hpending : s'.pending = u.pending) (hgiven : s'.given = u.given)
    (hcontrols : s'.controls = u.controls) (hscheduled : s'.scheduled = u.scheduled)
    (hfreed : s'.freed = u.freed) (hseq : s'.Send_seq = u.Send_seq) :
    Sound c s' ∧ ∀ n, s'.heldFor n ≠ [] → s'.Attended n := by
  have hreleases : s'.releases = s.releases := by
    rw [← hu.releases hgoal]
    unfold releases
    rw [hpending]
  have hbuffer : s'.Buffer = s.Buffer := hBuffer.trans hu.Buffer
  have hsame : SamePackets s s' := by
    refine ⟨?_, hreleases, hgiven.trans hu.given, hcontrols.trans hu.controls,
      hscheduled.trans hu.scheduled, hfreed.trans hu.freed, ?_⟩
    · intro n
      rw [hbuffer]
    · rw [hseq, hu.Send_seq]
  refine ⟨h.same hsame ?_, ?_⟩
  · intro n ptr hptr hne
    rw [hbuffer] at hptr
    rw [hpending]
    exact hu.mem (h.active n ptr hptr hne) (htimer _ _).symm
  · intro n hne
    rw [hsame.heldFor] at hne
    refine hu.attended (by rw [hbuffer]) hpending (fun _ _ => htimer _ _) ?_ (hattended n hne)
    rw [hgoal]
    simp

/-- The packets are sound, and no buffer is stranded. -/
def PacketInv (c : Config) (s : Obwa) : Prop :=
  Sound c s ∧ ∀ n, s.heldFor n ≠ [] → s.Attended n

/-- Nothing has come. -/
theorem init_packetInv : PacketInv c init := by
  refine ⟨⟨?_, ?_, ?_, ?_, ?_, ?_, List.nodup_nil, ?_, ?_, ?_, List.nodup_nil, ?_⟩, ?_⟩
  · intro n
    exact List.Perm.refl _
  · intro n
    exact List.Sublist.refl _
  · intro x hx
    cases hx
  · intro n ptr hptr
    cases hptr
  · intro k hk
    cases hk
  · intro e he
    cases he
  · intro n ptr hptr
    cases hptr
  · intro n p hp
    cases hp
  · intro n
    show (0 : Int) < 2 ^ 31
    decide
  · intro k hk
    cases hk
  · intro n hne
    exact absurd rfl hne

/-- **The invariant.** A step that keeps buffers attended to. -/
theorem step_packetInv {a : Action} (h : PacketInv c s) (hkeep : s.Keeps c a) (hs' : s.step c a = .ok s') :
    PacketInv c s' := by
  obtain ⟨h, hattended⟩ := h
  cases a with
  | send pkt next =>
    obtain rfl := Except.ok.inj hs'
    exact h.send hattended hkeep
  | pass now =>
    obtain rfl := Except.ok.inj hs'
    split_ifs
    · refine ⟨h.same ⟨fun _ => rfl, rfl, rfl, rfl, rfl, rfl, le_rfl⟩ h.active, ?_⟩
      intro n hne
      exact attended_mono (s := s) rfl (List.Subset.refl _) (hattended n hne)
    · exact ⟨h, hattended⟩
  | fire i =>
    cases he : s.events[i]? with
    | none =>
      simp only [step, he] at hs'
      obtain rfl := Except.ok.inj hs'
      exact ⟨h, hattended⟩
    | some e =>
      obtain ⟨time, e⟩ := e
      simp only [step, he] at hs'
      split_ifs at hs' with htime
      · have hu := fired_eraseIdx he
        have hkeep : s.EventKeeps c e := hkeep _ he htime
        cases e with
        | send_control_packet next seq =>
          obtain rfl := Except.ok.inj hs'
          exact h.send_control_packet hattended hu hkeep
        | release_buffer seq next sendlength wave => exact h.release_buffer hattended hu hs'
        | release_wave wave oport seq =>
          change Obwa.release_wave _ wave oport seq = .ok s' at hs'
          unfold release_wave at hs'
          split at hs'
          · cases hs'
          · obtain rfl := Except.ok.inj hs'
            exact h.unrelated hattended hu (by simp) rfl rfl rfl rfl rfl rfl rfl rfl
      · obtain rfl := Except.ok.inj hs'
        exact ⟨h, hattended⟩

open Run

/-- **Bursts are assembled from all packets.** In a run in which announcements go through and no buffer
    is deleted while its release is pending, no packet is ever lost, doubled or stranded, and each burst
    carries what its control packet has announced. -/
theorem run_assembled (c : Config) {actions : List Action} (h : Along (step c) (Keeps c) init actions) :
    Always (step c) Assembled init actions := by
  have hinv : Always (step c) (PacketInv c) init actions :=
    Always.of_along (fun s a s' hs hkeep hs' => step_packetInv hs hkeep hs') init_packetInv h
  exact hinv.mono fun s hs => hs.1.assembled hs.2

/-- A node with a path to one next hop. -/
def oneHop : Config where
  nid := 1
  HeadList_head := [⟨1, 2, 1, 1, 1⟩]
  ipv4addr_to_nodeid := id
  Process_time := 1
  Timeout := 10
  Send_packet_length := 1000
  Drop_packet_length := 2000
  MAX_WAVE := 4
  choose_wave := 0
  Calculate_trans_time := fun _ _ => 1
  Calculate_Propdelay_time := fun _ _ => 1000

/-- A packet arrives during the offset of a burst, and waits for its own timer. -/
theorem run_assembled_two :
    Always (step oneHop) Assembled init
      [.send ⟨1, 100⟩ 2, .pass 10, .fire 0, .send ⟨2, 50⟩ 2, .pass 12, .fire 0, .pass 20] :=
  run_assembled oneHop (by decide +kernel)

/-- A burst has left, but its wavelength is in use: the timer of the next packet is stopped for good. -/
theorem refused_packet_strands :
    ¬ Always (step oneHop) Assembled init
      [.send ⟨1, 100⟩ 2, .pass 10, .fire 0, .pass 12, .fire 0, .send ⟨2, 50⟩ 2, .pass 22, .fire 1] := by
  intro h
  obtain ⟨t, hassembled, heq⟩ := h.exec_map (f := fun s => (s.heldFor 2, s.releasing,
      (s.Buffer 2).map Buffer_list.AssembleTimer_active_seq))
    (b := ([⟨2, 62⟩], [], some 0)) (by decide +kernel)
  obtain ⟨hheld, hrest⟩ := Prod.mk.inj heq
  obtain ⟨hreleasing, hactive⟩ := Prod.mk.inj hrest
  rcases hassembled.attended 2 (by rw [hheld]; simp) with ⟨ptr, hptr, hne, -⟩ | hrel
  · rw [Option.mem_def.1 hptr] at hactive
    exact hne (Option.some.inj hactive)
  · rw [hreleasing] at hrel
    cases hrel

end Obwa

end Opt
