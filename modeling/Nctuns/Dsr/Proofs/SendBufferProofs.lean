import Mathlib.Data.List.TakeWhile
import Nctuns.Dsr.SendBuffer
import Nctuns.Lib.Outcome

/-!
# Proofs about route discovery

A timeout is pushed for each route request, later than the present time, and the timer is set to the
first of them. So it is enough that no timeout is over when the timer starts to run, and that a packet
which has to wait finds it running.
-/

namespace Dsr

open Outcome

variable {p : Periods} {now n : Nat} {node dst : UInt32} {s : DSRAgent}

/-! ### The send buffer -/

namespace SendBuffer

variable {timeout : Nat} {buffer : List SendBufferEntry}

theorem refresh_sublist : (refresh timeout now buffer).Sublist buffer := List.dropWhile_sublist _

/-- A refresh makes the buffer no longer. -/
theorem refresh_length_le (timeout now : Nat) (buffer : List SendBufferEntry) :
    (refresh timeout now buffer).length ≤ buffer.length :=
  refresh_sublist.length_le

/-- A packet of the present time is not thrown away. -/
theorem refresh_concat_ne_nil : refresh timeout now (buffer ++ [⟨now, dst⟩]) ≠ [] := by
  intro h
  have hall := List.dropWhile_eq_nil_iff.1 h ⟨now, dst⟩ (by simp)
  simp at hall

/-- A packet is appended to a buffer that stays within its size. -/
theorem push_back_spec (timeout now : Nat) (dst : UInt32) (h : buffer.length ≤ SEND_BUFFER_SIZE) :
    ∃ front, push_back timeout now buffer dst = .ok (front ++ [⟨now, dst⟩]) ∧
      (front ++ [⟨now, dst⟩]).length ≤ SEND_BUFFER_SIZE := by
  have hle := refresh_length_le timeout now buffer
  unfold push_back
  dsimp only
  by_cases hfull : (refresh timeout now buffer ++ [SendBufferEntry.mk now dst]).length > SEND_BUFFER_SIZE
  · rw [if_pos hfull]
    rw [List.length_append, List.length_singleton] at hfull
    have hne : refresh timeout now buffer ≠ [] := by
      rintro h0
      rw [h0] at hfull
      exact absurd hfull (by decide)
    obtain ⟨e, front, hfront⟩ := List.exists_cons_of_ne_nil hne
    rw [hfront, List.length_cons] at hfull hle
    have hlen : (front ++ [SendBufferEntry.mk now dst]).length = SEND_BUFFER_SIZE := by
      rw [List.length_append, List.length_singleton]
      omega
    refine ⟨front, ?_, Nat.le_of_eq hlen⟩
    rw [hfront, List.cons_append, List.tail_cons, if_pos hlen]
  · rw [if_neg hfull]
    exact ⟨_, rfl, Nat.le_of_not_lt hfull⟩

/-- A search takes entries away, at least one when it succeeds. -/
theorem find_spec (timeout now : Nat) (buffer : List SendBufferEntry) (dst : UInt32) :
    (find timeout now buffer dst).2.Sublist buffer ∧
    ((find timeout now buffer dst).1 = true →
      (find timeout now buffer dst).2.length < buffer.length) := by
  refine ⟨(List.eraseP_sublist).trans refresh_sublist, fun hany => ?_⟩
  obtain ⟨e, he, hdst⟩ := List.any_eq_true.1 hany
  have hless : (find timeout now buffer dst).2.length = (refresh timeout now buffer).length - 1 :=
    List.length_eraseP_of_mem he hdst
  have hpos := List.length_pos_of_mem he
  have hle := refresh_length_le timeout now buffer
  omega

end SendBuffer

/-! ### The request table -/

namespace RequestTable

variable {table : List RequestTableEntry} {f : RequestTableEntry → RequestTableEntry}

/-- A node has one entry, and the time until its next route request is not zero while it is counted. -/
structure Intact (table : List RequestTableEntry) : Prop where
  nodup : (table.map RequestTableEntry.ip_addr).Nodup
  grows : ∀ e ∈ table, e.retry_count = 0 ∨ 0 < e.remain_time

/-- An update keeps the addresses of the table. -/
theorem map_update (hf : ∀ e, (f e).ip_addr = e.ip_addr) :
    (update node f table).map RequestTableEntry.ip_addr = table.map RequestTableEntry.ip_addr := by
  induction table with
  | nil => rfl
  | cons e es ih =>
    unfold update
    split
    · rw [List.map_cons, List.map_cons, hf]
    · rw [List.map_cons, List.map_cons, ih]

/-- An entry after an update is an old one or an updated one. -/
theorem mem_update {e' : RequestTableEntry} (h : e' ∈ update node f table) :
    e' ∈ table ∨ ∃ e ∈ table, e' = f e := by
  induction table with
  | nil => cases h
  | cons e es ih =>
    unfold update at h
    split at h
    · rcases List.mem_cons.1 h with rfl | h
      · exact .inr ⟨e, List.mem_cons_self, rfl⟩
      · exact .inl (List.mem_cons_of_mem _ h)
    · rcases List.mem_cons.1 h with rfl | h
      · exact .inl List.mem_cons_self
      · rcases ih h with h | ⟨e₀, h₀, rfl⟩
        · exact .inl (List.mem_cons_of_mem _ h)
        · exact .inr ⟨e₀, List.mem_cons_of_mem _ h₀, rfl⟩

/-- An update that leaves a time to wait keeps the table intact. -/
theorem Intact.update (h : Intact table) (hf : ∀ e, (f e).ip_addr = e.ip_addr)
    (hgrows : ∀ e ∈ table, (f e).retry_count = 0 ∨ 0 < (f e).remain_time) :
    Intact (update node f table) where
  nodup := by
    rw [map_update hf]
    exact h.nodup
  grows e' he' := by
    rcases mem_update he' with he' | ⟨e, he, rfl⟩
    · exact h.grows e' he'
    · exact hgrows e he

/-- A new entry keeps the table intact. -/
theorem Intact.concat {e : RequestTableEntry} (h : Intact table) (hnew : find table e.ip_addr = none)
    (hgrows : e.retry_count = 0 ∨ 0 < e.remain_time) : Intact (table ++ [e]) where
  nodup := by
    rw [List.map_append, List.map_singleton]
    refine List.nodup_append.2 ⟨h.nodup, List.nodup_singleton _, ?_⟩
    rintro a ha b hb rfl
    obtain ⟨e₀, he₀, rfl⟩ := List.mem_map.1 ha
    have hne := List.find?_eq_none.1 hnew e₀ he₀
    exact hne (decide_eq_true (List.mem_singleton.1 hb))
  grows e' he' := by
    rcases List.mem_append.1 he' with he' | he'
    · exact h.grows e' he'
    · rw [List.mem_singleton.1 he']
      exact hgrows

theorem notifyRouteReply_intact (h : Intact table) : Intact (notifyRouteReply table dst) :=
  h.update (fun _ => rfl) fun _ _ => .inl rfl

/-- An inserted request keeps the table intact. -/
theorem insert_intact (h : Intact table) (req_num : UInt16) : Intact (insert table req_num node) := by
  unfold insert
  cases hfind : find table node with
  | none => exact h.concat hfind (.inl rfl)
  | some e => exact h.update (fun _ => rfl) fun e he => h.grows e he

/-- The next route request to the node comes later. -/
theorem initiated_remain_pos {e : RequestTableEntry} (p : Periods) (now : Nat) (ttl : UInt8)
    (h : e.retry_count = 0 ∨ 0 < e.remain_time) : 0 < (initiated p now ttl e).remain_time := by
  have hremain : 0 < if e.retry_count + 1 = 1 then p.period else e.remain_time * 2 := by
    split
    · exact p.period_pos
    · rename_i hne
      rcases h with h | h
      · rw [h] at hne
        exact absurd rfl hne
      · omega
  unfold initiated
  dsimp only
  generalize (if e.retry_count + 1 = 1 then p.period else e.remain_time * 2) = remain at *
  split
  · exact p.maxPeriod_pos
  · exact hremain

/-- The next request is allowed later than now, and the table stays intact. -/
theorem notifyRequestInitiate_spec (p : Periods) (now : Nat) (dst : UInt32) (h : Intact table)
    (ttl : UInt8) :
    now < (notifyRequestInitiate table p now dst ttl).1 ∧
      Intact (notifyRequestInitiate table p now dst ttl).2 := by
  unfold notifyRequestInitiate
  cases hfind : find table dst with
  | none => exact ⟨Nat.lt_add_of_pos_right p.period_pos, h.concat hfind (.inr p.period_pos)⟩
  | some e =>
    have hpos := initiated_remain_pos p now ttl
      (h.grows e (List.mem_of_find?_eq_some hfind))
    exact ⟨Nat.lt_add_of_pos_right hpos, h.update (fun _ => rfl) fun e he =>
      .inr (initiated_remain_pos p now ttl (h.grows e he))⟩

/-- A node that is allowed may be asked for. -/
theorem nextAllowedTime_le (h : Intact table) (hnode : whichNodeAllowed table now = node)
    (hvalid : node ≠ IP_invalid_addr) : nextAllowedTime table node ≤ now := by
  unfold whichNodeAllowed at hnode
  cases hfind : table.find? fun e => e.ip_ttl ≠ 0 ∧ now ≥ e.timestamp + e.remain_time with
  | none =>
    rw [hfind] at hnode
    exact absurd hnode.symm hvalid
  | some e =>
    rw [hfind] at hnode
    subst hnode
    have hdue : e.ip_ttl ≠ 0 ∧ now ≥ e.timestamp + e.remain_time := by
      simpa using List.find?_some hfind
    have hmem := List.mem_of_find?_eq_some hfind
    unfold nextAllowedTime
    cases hfirst : find table e.ip_addr with
    | none => exact Nat.zero_le _
    | some e₁ =>
      have haddr : e₁.ip_addr = e.ip_addr := by simpa using List.find?_some hfirst
      have hsame := List.inj_on_of_nodup_map h.nodup (List.mem_of_find?_eq_some hfirst) hmem haddr
      rw [hsame]
      exact hdue.2

end RequestTable

/-! ### The agent -/

namespace DSRAgent

open SendBuffer RequestTable

/-- The parts of the state are in order. -/
structure Sound (s : DSRAgent) : Prop where
  table : Intact s.request_table
  sorted : s.rreq_timeout.Pairwise (· ≤ ·)
  small : s.send_buffer.length ≤ SEND_BUFFER_SIZE

/-- The timer runs if packets wait, and expires at the first timeout. -/
structure Armed (s : DSRAgent) : Prop extends Sound s where
  timer : ∀ t, s.IF_timer = some t → s.now ≤ t ∧ s.rreq_timeout.head? = some t
  armed : s.send_buffer ≠ [] → s.IF_timer ≠ none

/-- An armed agent waits for its requests. -/
theorem Armed.waits (h : Armed s) : s.Waits := by
  intro hne
  obtain ⟨t, ht⟩ := Option.ne_none_iff_exists'.1 (h.armed hne)
  obtain ⟨hle, hhead⟩ := h.timer t ht
  exact ⟨t, hhead, ht, hle⟩

/-- No timeout is over. -/
def Ahead (s : DSRAgent) : Prop := ∀ t ∈ s.rreq_timeout, s.now ≤ t

/-- The timer of an armed agent is ahead. -/
theorem Armed.ahead {t : Nat} (h : Armed s) (ht : s.IF_timer = some t) : s.Ahead := by
  obtain ⟨hle, hhead⟩ := h.timer t ht
  obtain ⟨rest, hrest⟩ := List.head?_eq_some_iff.1 hhead
  have hsorted := h.sorted
  rw [hrest] at hsorted
  intro u hu
  rw [hrest] at hu
  rcases List.mem_cons.1 hu with rfl | hu
  · exact hle
  · exact Nat.le_trans hle ((List.pairwise_cons.1 hsorted).1 u hu)

/-- How a handler may end: well, or at one of the two assertions about timeouts of the same time. -/
abbrev Handled (r : Except Halt DSRAgent) : Prop :=
  Ends (fun e => e = .topNow ∨ e = .bufferNotEmpty) Armed r

/-- The state that `checkSendBuffer` expects. -/
structure Due (s : DSRAgent) : Prop extends Sound s where
  ahead : s.Ahead
  head : s.rreq_timeout.head? = some s.now
  stopped : s.IF_timer = none

/-- A time-out at another time is not due now. -/
theorem count_orderedInsert {t : Nat} {l : List Nat} (h : now ≠ t) :
    (l.orderedInsert (· ≤ ·) t).count now = l.count now := by
  rw [(List.perm_orderedInsert _ t l).count_eq, List.count_cons_of_ne (Ne.symm h)]

/-- A route request is handled when the check behind it is. -/
theorem requestRoute_handled {check : DSRAgent → Except Halt DSRAgent} (hs : Sound s)
    (hahead : s.Ahead) (hallowed : nextAllowedTime s.request_table dst ≤ s.now)
    (htimer : s.IF_timer = none ∨ refresh p.timeout s.now s.send_buffer ≠ [])
    (hcheck : ∀ s', Due s' → s'.rreq_timeout.count s'.now = s.rreq_timeout.count s.now →
      s'.rreq_timeout.length = s.rreq_timeout.length + 1 → Handled (check s')) :
    Handled (requestRoute p check s dst) := by
  obtain ⟨hlater, htable⟩ := notifyRequestInitiate_spec p s.now dst hs.table MAX_ROUTE_LEN
  have hlen := refresh_length_le p.timeout s.now s.send_buffer
  have hcount := count_orderedInsert (l := s.rreq_timeout) (Nat.ne_of_lt hlater)
  have hsorted := hs.sorted.orderedInsert
    (notifyRequestInitiate s.request_table p s.now dst MAX_ROUTE_LEN).1 s.rreq_timeout
  have hins : ∀ t ∈ s.rreq_timeout.orderedInsert (· ≤ ·)
      (notifyRequestInitiate s.request_table p s.now dst MAX_ROUTE_LEN).1, s.now ≤ t := by
    intro t ht
    rcases (List.mem_orderedInsert _).1 ht with rfl | ht
    · exact Nat.le_of_lt hlater
    · exact hahead t ht
  have hlength := List.orderedInsert_length (· ≤ ·) s.rreq_timeout
    (notifyRequestInitiate s.request_table p s.now dst MAX_ROUTE_LEN).1
  unfold requestRoute
  rw [if_neg (Nat.not_lt.2 hallowed)]
  dsimp only
  generalize (notifyRequestInitiate s.request_table p s.now dst MAX_ROUTE_LEN).2 = table at *
  generalize s.rreq_timeout.orderedInsert (· ≤ ·) _ = timeouts at *
  have hsound : ∀ timer, Sound ⟨s.now, table, refresh p.timeout s.now s.send_buffer, timeouts, timer⟩ :=
    fun _ => ⟨htable, hsorted, Nat.le_trans hlen hs.small⟩
  by_cases hempty : refresh p.timeout s.now s.send_buffer ≠ []
  · rw [if_pos hempty]
    cases timeouts with
    | nil => exact absurd hlength (by simp)
    | cons top rest =>
      dsimp only
      by_cases hnow : top = s.now
      · rw [if_pos hnow]
        exact hcheck _ ⟨hsound none, hins, congrArg some hnow, rfl⟩ hcount hlength
      · rw [if_neg hnow]
        have hle := hins top List.mem_cons_self
        unfold startTimer
        rw [if_neg (Nat.not_lt.2 hle)]
        refine ⟨hsound _, ?_, fun _ h => Option.some_ne_none _ h⟩
        rintro t ⟨⟩
        exact ⟨hle, rfl⟩
  · rw [if_neg hempty]
    have hnone := htimer.resolve_right hempty
    refine ⟨hsound _, ?_, fun hne => absurd hne hempty⟩
    intro t ht
    exact absurd (hnone.symm.trans ht) (Option.some_ne_none t).symm

/-- Each round takes a timeout of the present time, and pushes none. -/
theorem checkSendBuffer_handled (h : Due s) (hn : s.rreq_timeout.count s.now < n) :
    Handled (s.checkSendBuffer p n) := by
  induction n generalizing s with
  | zero => exact absurd hn (Nat.not_lt_zero _)
  | succ n ih =>
    obtain ⟨rest, hrest⟩ := List.head?_eq_some_iff.1 h.head
    have hsorted := h.sorted
    have hahead := h.ahead
    unfold Ahead at hahead
    rw [hrest] at hsorted hahead hn
    rw [List.count_cons_self] at hn
    have hsound : Sound { s with rreq_timeout := rest } :=
      ⟨h.table, (List.pairwise_cons.1 hsorted).2, h.small⟩
    have hlen := refresh_length_le p.timeout s.now s.send_buffer
    have hclean : ∀ timer, Sound ⟨s.now, s.request_table, refresh p.timeout s.now s.send_buffer, rest,
        timer⟩ := fun _ => ⟨h.table, (List.pairwise_cons.1 hsorted).2, Nat.le_trans hlen h.small⟩
    unfold checkSendBuffer
    rw [hrest]
    dsimp only
    rw [if_neg (not_not.2 rfl)]
    by_cases hnode : whichNodeAllowed s.request_table s.now ≠ IP_invalid_addr
    · rw [if_pos hnode]
      refine requestRoute_handled hsound (fun t ht => hahead t (List.mem_cons_of_mem _ ht))
        (nextAllowedTime_le h.table rfl hnode) (.inl h.stopped) fun s' hs' hcount _ => ih hs' ?_
      rw [hcount]
      show rest.count s.now < n
      omega
    · rw [if_neg hnode]
      cases rest with
      | nil =>
        dsimp only
        split
        · rename_i hempty
          refine ⟨hclean _, ?_, fun hne => absurd hempty hne⟩
          intro t ht
          exact absurd (h.stopped.symm.trans ht) (Option.some_ne_none t).symm
        · exact .inr rfl
      | cons top rest =>
        dsimp only
        split
        · split
          · exact .inl rfl
          · have hle := hahead top (by simp)
            unfold startTimer
            rw [if_neg (Nat.not_lt.2 hle)]
            refine ⟨hclean _, ?_, fun _ h => Option.some_ne_none _ h⟩
            rintro t ⟨⟩
            exact ⟨hle, rfl⟩
        · rename_i hempty
          refine ⟨hclean _, ?_, fun hne => absurd hne hempty⟩
          intro t ht
          exact absurd (h.stopped.symm.trans ht) (Option.some_ne_none t).symm

theorem runCheckSendBuffer_handled (h : Due s) : Handled (s.runCheckSendBuffer p) :=
  checkSendBuffer_handled h (Nat.lt_succ_of_le List.count_le_length)

/-- **Packet.** A packet that arms the timer is handled. -/
theorem getRouteForPacket_handled (h : Armed s) (harms : s.Arms (.packet dst)) :
    Handled (s.getRouteForPacket p dst) := by
  obtain ⟨front, hpush, hsmall⟩ :=
    push_back_spec p.timeout s.now dst h.small
  unfold getRouteForPacket
  rw [hpush]
  dsimp only
  have hsound : Sound { s with send_buffer := front ++ [⟨s.now, dst⟩] } := ⟨h.table, h.sorted, hsmall⟩
  by_cases hallowed : nextAllowedTime s.request_table dst ≤ s.now
  · have hahead : s.Ahead := by
      cases htimer : s.IF_timer with
      | none => exact (harms htimer).2
      | some t => exact h.ahead htimer
    exact requestRoute_handled hsound hahead hallowed (.inr refresh_concat_ne_nil)
      fun s' hs' _ _ => runCheckSendBuffer_handled hs'
  · unfold requestRoute
    rw [if_pos (Nat.lt_of_not_le hallowed)]
    -- the packet waits for a timer that runs
    exact ⟨hsound, h.timer, fun _ hnone => hallowed (harms hnone).1⟩

/-- The packets that are sent leave the buffer. -/
theorem sendFound_spec (p : Periods) (dst : UInt32) (hn : s.send_buffer.length < n) :
    ∃ buffer, s.sendFound p dst n = .ok { s with send_buffer := buffer } ∧
      buffer.Sublist s.send_buffer := by
  induction n generalizing s with
  | zero => exact absurd hn (Nat.not_lt_zero _)
  | succ n ih =>
    obtain ⟨hsub, hless⟩ :=
      find_spec p.timeout s.now s.send_buffer dst
    unfold sendFound
    dsimp only
    generalize SendBuffer.find p.timeout s.now s.send_buffer dst = r at *
    by_cases hfound : r.1 = true
    · rw [if_pos hfound]
      obtain ⟨buffer, hrun, hbuffer⟩ := ih (s := { s with send_buffer := r.2 })
        (Nat.lt_of_lt_of_le (hless hfound) (Nat.le_of_lt_succ hn))
      exact ⟨buffer, hrun, hbuffer.trans hsub⟩
    · rw [if_neg hfound]
      exact ⟨r.2, rfl, hsub⟩

/-- **Reply.** A route reply is handled. -/
theorem handleRouteReply_handled (h : Armed s) : Handled (s.handleRouteReply p dst) := by
  unfold handleRouteReply
  obtain ⟨buffer, hrun, hbuffer⟩ := sendFound_spec p dst
    (s := { s with request_table := notifyRouteReply s.request_table dst }) (Nat.lt_succ_self _)
  dsimp only
  rw [hrun]
  refine ⟨⟨notifyRouteReply_intact h.table, h.sorted, Nat.le_trans hbuffer.length_le h.small⟩, h.timer,
    fun hne => h.armed fun hnil => hne ?_⟩
  rw [show s.send_buffer = [] from hnil] at hbuffer
  exact List.sublist_nil.1 hbuffer

/-- **Step.** Every action that arms the timer is handled. -/
theorem step_handled (h : Armed s) (a : AgentAction) (harms : s.Arms a) : Handled (s.step p a) := by
  cases a with
  | packet dst => exact getRouteForPacket_handled h harms
  | routeReply dst => exact handleRouteReply_handled h
  | routeRequest sequence_num src =>
    exact ⟨⟨insert_intact h.table sequence_num, h.sorted, h.small⟩, h.timer, h.armed⟩
  | elapse ticks =>
    unfold step
    cases htimer : s.IF_timer with
    | none =>
      dsimp only
      refine ⟨⟨h.table, h.sorted, h.small⟩, ?_, fun hne => absurd htimer (h.armed hne)⟩
      rintro t ⟨⟩
    | some expiry =>
      dsimp only
      obtain ⟨hle, hhead⟩ := h.timer expiry htimer
      refine ⟨⟨h.table, h.sorted, h.small⟩, ?_, fun _ h => Option.some_ne_none _ h⟩
      rintro t ⟨⟩
      refine ⟨?_, hhead⟩
      show max s.now (min (s.now + ticks) expiry) ≤ expiry
      omega
  | expire =>
    unfold step
    cases htimer : s.IF_timer with
    | none => exact h
    | some expiry =>
      obtain ⟨hle, hhead⟩ := h.timer expiry htimer
      have hnow : max s.now expiry = expiry := Nat.max_eq_right hle
      dsimp only
      rw [hnow]
      refine runCheckSendBuffer_handled ⟨⟨h.table, h.sorted, h.small⟩, ?_, hhead, rfl⟩
      obtain ⟨rest, hrest⟩ := List.head?_eq_some_iff.1 hhead
      have hsorted := h.sorted
      rw [hrest] at hsorted
      intro t ht
      rw [show s.rreq_timeout = expiry :: rest from hrest] at ht
      rcases List.mem_cons.1 ht with rfl | ht
      · exact Nat.le_refl _
      · exact (List.pairwise_cons.1 hsorted).1 t ht

/-- The agent is armed at the start. -/
theorem init_armed : Armed init where
  table := ⟨List.nodup_nil, by simp [init]⟩
  sorted := List.Pairwise.nil
  small := Nat.zero_le _
  timer t ht := by cases ht
  armed hne := absurd rfl hne

/-- **The timer of the route discovery.** If each packet that comes when the timer does not run makes
    a route request while no timeout is over, the timer runs whenever packets wait, and it expires at
    the first timeout. -/
theorem run_waits (p : Periods) (acts : List AgentAction)
    (harms : Run.Along (step p) Arms init acts) :
    Run.Always (step p) Waits init acts ∧
      ∀ e, Run.exec (step p) init acts = .error e → e = .topNow ∨ e = .bufferNotEmpty := by
  have hstep : ∀ s a s', Armed s → Arms s a → step p s a = .ok s' → Armed s' := by
    intro s a s' h ha hs
    have hends := step_handled (p := p) h a ha
    rwa [hs] at hends
  refine ⟨(Run.Always.of_along hstep init_armed harms).mono fun _ => Armed.waits, ?_⟩
  intro e he
  by_contra hne
  refine Run.exec_ne_error_of_along hstep ?_ init_armed harms he
  intro s a h ha hs
  have hends := step_handled (p := p) h a ha
  rw [hs] at hends
  exact hne hends

/-- Two packets wait for routes; one of them is found. -/
theorem run_waits_two :
    let p : Periods := ⟨5, 100, 300, by decide, by decide⟩
    let acts : List AgentAction :=
      [.packet 7, .elapse 1, .packet 8, .routeReply 7, .expire, .elapse 3, .packet 9, .expire]
    Run.Along (step p) Arms init acts ∧ Run.Always (step p) Waits init acts :=
  ⟨by decide, (run_waits _ _ (by decide)).1⟩

/-- After seven expiries the packet is thrown away and the timer stops. Another packet for the same node
    waits for the next route request, and no timer runs; or it is for another node, after the last
    timeout, and the timer is set to the past. -/
theorem packet_waits_without_timer :
    let p : Periods := ⟨5, 100, 300, by decide, by decide⟩
    let acts : List AgentAction := .packet 7 :: List.replicate 7 .expire
    ¬ Run.Always (step p) Waits init (acts ++ [.elapse 45, .packet 7]) ∧
      Run.exec (step p) init (acts ++ [.elapse 145, .packet 8]) = .error .startWraps := by
  refine ⟨fun h => ?_, rfl⟩
  obtain ⟨top, -, htimer, -⟩ := h.exec rfl (List.cons_ne_nil _ _)
  cases htimer

end DSRAgent

end Dsr
