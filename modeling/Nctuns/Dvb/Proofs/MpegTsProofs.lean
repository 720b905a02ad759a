import Nctuns.Dvb.MpegTs

/-!
# Proofs: MPEG-2 transport stream

Only the entry of its own PID matters to a packet, so a PID can be followed alone. `Pending` is what
the entry and the packets still to come have to do with each other; from it follows what the rest of
the packets delivers.
-/

namespace Dvb

open Memory Lossy

variable {pid : Pid} {c i k m n x : Nat} {s : Section} {ss : List Section} {e : Option SecInfo}
  {si : SecInfo} {a : Arrival} {as : List Arrival} {l r : List TsPacket} {exp : List (List Byte)}

/-! ## One PID -/

/-- The receiver of one PID. -/
def recvOn (e : Option SecInfo) : List Arrival → List (List Byte)
  | [] => []
  | a :: as => (recvEntry e a).2.toList ++ recvOn (recvEntry e a).1 as

theorem recvAll_on (st : TsRcst) (pid : Pid) (as : List Arrival) :
    ((st.recvAll as).filter (·.1 = pid)).map Prod.snd =
      recvOn (st pid) (as.filter (·.pkt.pid = pid)) := by
  induction as generalizing st with
  | nil => rfl
  | cons a as ih =>
    rw [TsRcst.recvAll, List.filter_append, List.map_append, ih]
    by_cases hp : a.pkt.pid = pid
    · subst hp
      rw [List.filter_cons_of_pos (by simp), recvOn]
      cases h : (recvEntry (st a.pkt.pid) a).2 <;> simp [TsRcst.recv, h]
    · rw [List.filter_cons_of_neg (by simpa using hp)]
      have hst : (st.recv a).1 pid = st pid := by
        simp [TsRcst.recv, Function.update_of_ne (Ne.symm hp)]
      rw [hst]
      cases h : (recvEntry (st a.pkt.pid) a).2 <;> simp [TsRcst.recv, h, hp]

theorem deliveredOn_eq (pid : Pid) (as : List Arrival) :
    deliveredOn pid as = recvOn none (as.filter (·.pkt.pid = pid)) :=
  recvAll_on (fun _ => none) pid as

theorem packetsOn_eq (pid : Pid) (as : List Arrival) :
    packetsOn pid as = (as.filter (·.pkt.pid = pid)).map Arrival.pkt := by
  rw [packetsOn, List.filter_map]; rfl

/-! ## The packets of a section -/

/-- The part of the section that a packet carries. -/
theorem tsPacket_data {len : Nat} {data junk : Nat → Byte}
    (h : k < if tsPacketCount len - i = 1 then len % 184 else 184) :
    (tsPacket pid c data len junk i).data k = data (184 * i + k) := by
  unfold tsPacket
  dsimp only
  rw [copy_inside (Nat.zero_le k) (by rwa [Nat.zero_add]), Nat.sub_zero]

/-- What is behind that part in a packet. -/
theorem tsPacket_junk {len : Nat} {data junk : Nat → Byte}
    (h : (if tsPacketCount len - i = 1 then len % 184 else 184) ≤ k) :
    (tsPacket pid c data len junk i).data k = junk k := by
  unfold tsPacket
  dsimp only
  rw [copy_outside (.inr (by rwa [Nat.zero_add]))]

/-- The packets of a section from the `i`-th on, `k` of them. -/
def packetsFrom (pid : Pid) (c : Nat) (s : Section) (i k : Nat) : List TsPacket :=
  (List.range' i k).map fun j => tsPacket pid c s.data s.bytes.length (s.junk j) j

theorem packetsFrom_succ : packetsFrom pid c s i (k + 1) =
    tsPacket pid c s.data s.bytes.length (s.junk i) i :: packetsFrom pid c s (i + 1) k := by
  rw [packetsFrom, List.range'_succ, List.map_cons, packetsFrom]

/-- The packets of the sections sent on a PID whose continuity counter is `c`. -/
def sentFrom (pid : Pid) (c : Nat) : List Section → List TsPacket
  | [] => []
  | s :: ss => packetsFrom pid c s 0 (tsPacketCount s.bytes.length) ++
      sentFrom pid ((c + tsPacketCount s.bytes.length) % 16) ss

theorem sendAll_eq (sender : TsSender) (cc : ContiCount) (pid : Pid) (ss : List Section) :
    sender.sendAll cc pid ss = sentFrom pid ((cc pid).getD 0) ss := by
  induction ss generalizing cc with
  | nil => rfl
  | cons s ss ih =>
    have hsend : sender.send = sendSection := by cases sender <;> rfl
    rw [TsSender.sendAll, ih, sentFrom, hsend]
    simp only [sendSection, Section.packets, packetsFrom, List.range_eq_range', Function.update_self,
      Option.getD_some]

/-- The first packet sent is the first one of its section. -/
theorem sentFrom_cons (pid : Pid) (c : Nat) (ss : List Section) (h : 0 < tsPacketCount s.bytes.length) :
    ∃ m, m + 1 = tsPacketCount s.bytes.length ∧ sentFrom pid c (s :: ss) =
      tsPacket pid c s.data s.bytes.length (s.junk 0) 0 :: (packetsFrom pid c s 1 m ++
        sentFrom pid ((c + tsPacketCount s.bytes.length) % 16) ss) := by
  obtain ⟨m, hm⟩ := Nat.exists_eq_succ_of_ne_zero (Nat.ne_of_gt h)
  refine ⟨m, hm.symm, ?_⟩
  rw [sentFrom, ← List.cons_append, ← packetsFrom_succ, hm]

/-- What the receiver makes of a section: the last packet of a section whose length is a multiple of
    184 carries nothing of it. -/
def Section.received (s : Section) : List Byte :=
  read (fun k => if s.bytes.length % 184 = 0 ∧ s.bytes.length - 184 ≤ k then
    s.junk (tsPacketCount s.bytes.length - 1) (k - (s.bytes.length - 184)) else s.data k) s.bytes.length

theorem received_eq (h : s.bytes.length % 184 ≠ 0) : s.received = s.bytes := by
  refine read_eq fun k hk => ?_
  rw [if_neg (by omega)]
  exact ofList_of_lt hk

theorem getElem_received (h0 : s.bytes.length % 184 = 0) (hk : s.bytes.length - 184 ≤ k)
    (hlt : k < s.received.length) : s.received[k] =
      s.junk (tsPacketCount s.bytes.length - 1) (k - (s.bytes.length - 184)) :=
  (getElem_read hlt).trans (if_pos ⟨h0, hk⟩)

/-- The receiver sees the right length in the first packet. -/
structure Heads (s : Section) : Prop where
  valid : ValidSection s.bytes
  junk : s.bytes.length = 184 → s.junk 0 1 = s.data 1 ∧ s.junk 0 2 = s.data 2

/-- The entry holds the first `i` packets of `s`. -/
structure Holding (e : SecInfo) (c : Nat) (s : Section) (i : Nat) : Prop where
  cnt : e.ts_pkt_cnt = tsPacketCount s.bytes.length - i
  next : 0 < i → e.next_conti_cnt = (c + i) % 16
  len : e.sect_len = s.bytes.length
  data : ∀ k < 184 * i, e.data_ptr k = s.data k

theorem tsPacketCount_bounds (h : ValidSection s.bytes) :
    0 < tsPacketCount s.bytes.length ∧ tsPacketCount s.bytes.length ≤ 23 := by
  obtain ⟨h1, h2, -⟩ := h
  unfold tsPacketCount; omega

/-- The first packet of a section shows its length. -/
theorem get_section_length_first (h : Heads s) :
    get_section_length (tsPacket pid c s.data s.bytes.length (s.junk 0) 0).data + 3 =
      s.bytes.length := by
  obtain ⟨⟨h4, -, hlen⟩, hjunk⟩ := h
  have hdata : ∀ k, k = 1 ∨ k = 2 →
      (tsPacket pid c s.data s.bytes.length (s.junk 0) 0).data k = s.data k := by
    intro k hk
    by_cases h184 : s.bytes.length = 184
    · rw [tsPacket_junk (by unfold tsPacketCount; split_ifs <;> omega)]
      rcases hk with rfl | rfl
      · exact (hjunk h184).1
      · exact (hjunk h184).2
    · rw [tsPacket_data (by unfold tsPacketCount; split_ifs <;> omega), Nat.mul_zero, Nat.zero_add]
  calc get_section_length (tsPacket pid c s.data s.bytes.length (s.junk 0) 0).data + 3
      = get_section_length s.data + 3 := by
        unfold get_section_length
        rw [hdata 1 (.inl rfl), hdata 2 (.inr rfl)]
    _ = s.bytes.length := hlen

/-- A packet of a section goes to its place: afterwards the entry holds it too, or the section is
    complete. -/
theorem put_spec (pid : Pid) (hv : ValidSection s.bytes) (h : Holding si c s i)
    (hi : i < tsPacketCount s.bytes.length) :
    let p := tsPacket pid c s.data s.bytes.length (s.junk i) i
    (i + 1 < tsPacketCount s.bytes.length → Holding (si.put p) c s (i + 1)) ∧
    (i + 1 = tsPacketCount s.bytes.length → (si.put p).ts_pkt_cnt = 0 ∧
      read (si.put p).data_ptr (si.put p).sect_len = s.received) := by
  intro p
  obtain ⟨hm, hm'⟩ := tsPacketCount_bounds hv
  have hcount : s.bytes.length ≤ 184 * tsPacketCount s.bytes.length ∧
      184 * tsPacketCount s.bytes.length < s.bytes.length + 184 := by unfold tsPacketCount; omega
  have hoff : 184 * (tsPacketCount si.sect_len - si.ts_pkt_cnt) = 184 * i := by
    rw [h.cnt, h.len]; omega
  have hcnt : (si.put p).ts_pkt_cnt = tsPacketCount s.bytes.length - (i + 1) := by
    have : (si.put p).ts_pkt_cnt = (si.ts_pkt_cnt + 255) % 256 := rfl
    rw [this, h.cnt]; omega
  refine ⟨fun hlt => ⟨hcnt, fun _ => ?_, h.len, fun k hk => ?_⟩, fun heq => ⟨by rw [hcnt]; omega, ?_⟩⟩
  · show ((c + i) % 16 + 1) % 16 = _
    omega
  · have hput : (si.put p).data_ptr = copy si.data_ptr (184 * i) p.data 184 := by
      simp only [SecInfo.put]
      rw [if_neg (by rw [h.cnt]; omega), hoff]
    rw [hput]
    by_cases hki : k < 184 * i
    · rw [copy_outside (.inl hki)]; exact h.data k hki
    · rw [copy_inside (by omega) (by omega), tsPacket_data (by rw [if_neg (by omega)]; omega)]
      congr 1; omega
  · rw [show (si.put p).sect_len = s.bytes.length from h.len, Section.received]
    refine read_congr fun k hk => ?_
    have hlast : i = tsPacketCount s.bytes.length - 1 := by omega
    by_cases h0 : s.bytes.length % 184 = 0
    · have hput : (si.put p).data_ptr = copy si.data_ptr (184 * i) p.data 184 := by
        simp only [SecInfo.put]
        rw [if_neg (by rw [h.len]; omega), hoff]
      rw [hput]
      by_cases hki : k < 184 * i
      · rw [copy_outside (.inl hki), if_neg (by omega)]; exact h.data k hki
      · have hsize : tsPacketCount s.bytes.length - i = 1 := by omega
        rw [copy_inside (by omega) (by omega), if_pos ⟨h0, by omega⟩,
          tsPacket_junk (by rw [if_pos hsize, h0]; exact Nat.zero_le _), ← hlast,
          show k - 184 * i = k - (s.bytes.length - 184) by omega]
    · have hput : (si.put p).data_ptr = copy si.data_ptr (184 * i) p.data (s.bytes.length % 184) := by
        simp only [SecInfo.put]
        rw [if_pos ⟨by rw [h.cnt]; omega, by rw [h.len]; exact h0⟩, hoff, h.len]
      rw [hput, if_neg (by omega)]
      by_cases hki : k < 184 * i
      · rw [copy_outside (.inl hki)]; exact h.data k hki
      · have hsize : tsPacketCount s.bytes.length - i = 1 := by omega
        rw [copy_inside (by omega) (by omega), tsPacket_data (by rw [if_pos hsize]; omega)]
        congr 1; omega

theorem new_holding (hs : Heads s) (hp : a.pkt = tsPacket pid c s.data s.bytes.length (s.junk 0) 0) :
    Holding (.new a) c s 0 := by
  have hlen : (SecInfo.new a).sect_len = s.bytes.length := by
    show get_section_length a.pkt.data + 3 = _
    rw [hp]; exact get_section_length_first hs
  refine ⟨?_, fun h0 => absurd h0 (by omega), hlen, fun k hk => by omega⟩
  show tsPacketCount (SecInfo.new a).sect_len % 256 = _
  have := tsPacketCount_bounds hs.valid
  rw [hlen]; omega

/-! ## The packets to come -/

/-- After `n` losses in a row the entry, if there is one, expects another packet than `x`. -/
def Stale (e : Option SecInfo) (n x : Nat) : Prop :=
  ∀ si, e = some si → (si.next_conti_cnt + n) % 16 = x % 16 ∧ 0 < n ∧ n < 16

/-- The packets `l` are still to be sent, the entry is `e`, the last `n` packets were lost, and the
    sections `exp` are delivered if no more packets are lost. Either the entry holds what was sent of
    the present section, or the rest of that section will be rejected. -/
inductive Pending (pid : Pid) (l : List TsPacket) (e : Option SecInfo) (n : Nat)
    (exp : List (List Byte)) : Prop
  | held (c : Nat) (s : Section) (i k : Nat) (si : SecInfo) (ss : List Section) (hs : Heads s)
      (hss : ∀ s ∈ ss, Heads s) (hi : 0 < i) (hk : i + (k + 1) = tsPacketCount s.bytes.length)
      (hl : l = packetsFrom pid c s i (k + 1) ++
        sentFrom pid ((c + tsPacketCount s.bytes.length) % 16) ss)
      (he : e = some si) (hold : Holding si c s i) (hn : n = 0)
      (hexp : exp = s.received :: ss.map Section.received)
  | lost (c : Nat) (s : Section) (i k : Nat) (ss : List Section) (hss : ∀ s ∈ ss, Heads s)
      (hi : 0 < i) (hl : l = packetsFrom pid c s i k ++ sentFrom pid ((c + (i + k)) % 16) ss)
      (he : Stale e n (c + i)) (hexp : exp = ss.map Section.received)

/-- A packet that the entry accepts. -/
theorem accept_spec (hs : Heads s) (hss : ∀ s ∈ ss, Heads s) (h : Holding si c s i)
    (hk : i + (k + 1) = tsPacketCount s.bytes.length)
    (hp : a.pkt = tsPacket pid c s.data s.bytes.length (s.junk i) i)
    (hrecv : recvEntry e a = if (si.put a.pkt).ts_pkt_cnt = 0 then
      (none, some (read (si.put a.pkt).data_ptr (si.put a.pkt).sect_len))
        else (some (si.put a.pkt), none)) :
    ∃ exp', Pending pid (packetsFrom pid c s (i + 1) k ++
        sentFrom pid ((c + tsPacketCount s.bytes.length) % 16) ss) (recvEntry e a).1 0 exp' ∧
      (recvEntry e a).2.toList ++ exp' = s.received :: ss.map Section.received := by
  obtain ⟨hmore, hdone⟩ := put_spec pid hs.valid h (by omega)
  rw [← hp] at hmore hdone
  cases k with
  | zero =>
    obtain ⟨hcnt, hread⟩ := hdone hk
    rw [hrecv, if_pos hcnt, hread]
    refine ⟨_, .lost c s (i + 1) 0 ss hss (Nat.succ_pos i) ?_ (fun si h => by simp at h) rfl, rfl⟩
    rw [Nat.add_zero, hk]
  | succ k =>
    have hold := hmore (by omega)
    have hcnt : (si.put a.pkt).ts_pkt_cnt ≠ 0 := by rw [hold.cnt]; omega
    rw [hrecv, if_neg hcnt]
    exact ⟨_, .held c s (i + 1) k _ ss hs hss (Nat.succ_pos i) (by omega) rfl rfl hold rfl rfl, rfl⟩

/-- A packet that arrives. -/
theorem Pending.keep (h : Pending pid (a.pkt :: l) e n exp) :
    ∃ exp', Pending pid l (recvEntry e a).1 0 exp' ∧ (recvEntry e a).2.toList ++ exp' = exp := by
  cases h with
  | held c s i k si ss hs hss hi hk hl he hold hn hexp =>
    rw [packetsFrom_succ, List.cons_append, List.cons.injEq] at hl
    obtain ⟨hp, rfl⟩ := hl
    subst he hexp
    refine accept_spec hs hss hold hk hp ?_
    have hstart : a.pkt.payload_unit_start_indicator = false := by
      rw [hp]; show (i == 0) = false; simpa using Nat.ne_of_gt hi
    have hcc : a.pkt.continuity_counter = si.next_conti_cnt := by
      rw [hold.next hi, hp]; rfl
    simp only [recvEntry, hstart, hcc, if_true, Bool.false_eq_true, if_false]
  | lost c s i k ss hss hi hl he hexp =>
    subst hexp
    cases k with
    | succ k =>
      rw [packetsFrom_succ, List.cons_append, List.cons.injEq] at hl
      obtain ⟨hp, rfl⟩ := hl
      have hstart : a.pkt.payload_unit_start_indicator = false := by
        rw [hp]; show (i == 0) = false; simpa using Nat.ne_of_gt hi
      have hcc : a.pkt.continuity_counter = (c + i) % 16 := by rw [hp]; rfl
      have hrej : recvEntry e a = (none, none) := by
        cases e with
        | none => simp [recvEntry, hstart]
        | some si =>
          obtain ⟨hx, hn0, hn⟩ := he si rfl
          have hne : (c + i) % 16 ≠ si.next_conti_cnt := by omega
          simp [recvEntry, hstart, hcc, hne]
      rw [hrej]
      refine ⟨_, .lost c s (i + 1) k ss hss (Nat.succ_pos i) ?_ (fun si h => by simp at h) rfl, rfl⟩
      rw [show i + (k + 1) = i + 1 + k by omega]
    | zero =>
      cases ss with
      | nil => simp [packetsFrom, sentFrom] at hl
      | cons s' ss =>
        have hs' : Heads s' := hss s' (List.mem_cons_self ..)
        obtain ⟨m, hm, hcons⟩ := sentFrom_cons pid ((c + (i + 0)) % 16) ss
          (tsPacketCount_bounds hs'.valid).1
        obtain ⟨hp, rfl⟩ := List.cons.inj (hl.trans hcons)
        refine accept_spec hs' (fun s hs => hss s (List.mem_cons_of_mem _ hs)) (new_holding hs' hp)
          (by omega) hp ?_
        have hstart : a.pkt.payload_unit_start_indicator = true := by rw [hp]; rfl
        simp only [recvEntry, hstart, if_true]

/-- A packet that is lost. -/
theorem Pending.lose {p : TsPacket} (h : Pending pid (p :: l) e n exp) (hn : n + 1 < 16) :
    ∃ exp', Pending pid l e (n + 1) exp' ∧ exp'.Sublist exp := by
  cases h with
  | held c s i k si ss hs hss hi hk hl he hold hn0 hexp =>
    rw [packetsFrom_succ, List.cons_append, List.cons.injEq] at hl
    obtain ⟨-, rfl⟩ := hl
    subst hexp
    refine ⟨_, .lost c s (i + 1) k ss hss (Nat.succ_pos i) ?_ ?_ rfl, List.sublist_cons_self _ _⟩
    · rw [show i + 1 + k = tsPacketCount s.bytes.length by omega]
    · intro si' hsi
      obtain rfl := Option.some.inj (he.symm.trans hsi)
      rw [hold.next hi]; omega
  | lost c s i k ss hss hi hl he hexp =>
    subst hexp
    have hstale : Stale e (n + 1) (c + (i + 1)) := by
      intro si hsi
      obtain ⟨hx, hn0, -⟩ := he si hsi
      omega
    cases k with
    | succ k =>
      rw [packetsFrom_succ, List.cons_append, List.cons.injEq] at hl
      obtain ⟨-, rfl⟩ := hl
      refine ⟨_, .lost c s (i + 1) k ss hss (Nat.succ_pos i) ?_ hstale rfl, .refl _⟩
      rw [show i + (k + 1) = i + 1 + k by omega]
    | zero =>
      cases ss with
      | nil => simp [packetsFrom, sentFrom] at hl
      | cons s' ss =>
        have hs' : Heads s' := hss s' (List.mem_cons_self ..)
        obtain ⟨m, hm, hcons⟩ := sentFrom_cons pid ((c + (i + 0)) % 16) ss
          (tsPacketCount_bounds hs'.valid).1
        obtain ⟨-, rfl⟩ := List.cons.inj (hl.trans hcons)
        refine ⟨_, .lost ((c + (i + 0)) % 16) s' 1 m ss
          (fun s hs => hss s (List.mem_cons_of_mem _ hs)) Nat.one_pos ?_ ?_ rfl,
          List.sublist_cons_self _ _⟩
        · rw [show 1 + m = tsPacketCount s'.bytes.length by omega]
        · intro si hsi
          have := hstale si hsi
          omega

theorem Pending.nil (h : Pending pid [] e n exp) : exp = [] := by
  cases h with
  | held c s i k si ss hs hss hi hk hl => simp [packetsFrom_succ] at hl
  | lost c s i k ss hss hi hl he hexp =>
    cases ss with
    | nil => exact hexp
    | cons s' ss =>
      have hm := (tsPacketCount_bounds (hss s' (List.mem_cons_self ..)).valid).1
      have hlen := congrArg List.length hl
      simp [packetsFrom, sentFrom] at hlen
      omega

/-- Before the first packet. -/
theorem pending_all (hss : ∀ s ∈ ss, Heads s) :
    Pending pid (sentFrom pid 0 ss) none 0 (ss.map Section.received) :=
  .lost 0 ⟨[], fun _ _ => 0⟩ 16 0 ss hss (by omega) rfl (fun si h => by simp at h) rfl

theorem recvOn_lossless (h : Pending pid (as.map Arrival.pkt) e n exp) : recvOn e as = exp := by
  induction as generalizing e n exp with
  | nil => exact h.nil.symm
  | cons a as ih =>
    obtain ⟨exp', h', hexp⟩ := Pending.keep h
    rw [recvOn, ih h', hexp]

theorem recvOn_lossy (hr : Survives 16 n l r) (has : as.map Arrival.pkt = r)
    (h : Pending pid l e n exp) : (recvOn e as).Sublist exp := by
  induction hr generalizing as e exp with
  | nil n =>
    obtain rfl := List.map_eq_nil_iff.1 has
    exact List.nil_sublist _
  | keep _ ih =>
    obtain ⟨b, bs, rfl, rfl, hbs⟩ := List.map_eq_cons_iff.1 has
    obtain ⟨exp', h', rfl⟩ := Pending.keep h
    exact (ih hbs h').append_left _
  | lose hn _ ih =>
    obtain ⟨exp', h', hsub⟩ := h.lose hn
    exact (ih has h').trans hsub

/-! ## The transport -/

/-- What is delivered of sections whose length the receiver sees. -/
theorem delivered_received (sender : TsSender) (hss : ∀ s ∈ ss, Heads s) (as : List Arrival) :
    (packetsOn pid as = sender.sendAll (fun _ => none) pid ss →
      deliveredOn pid as = ss.map Section.received) ∧
    (Survives 16 0 (sender.sendAll (fun _ => none) pid ss) (packetsOn pid as) →
      (deliveredOn pid as).Sublist (ss.map Section.received)) := by
  rw [sendAll_eq, packetsOn_eq, deliveredOn_eq, Option.getD_none]
  exact ⟨fun h => recvOn_lossless (h ▸ pending_all hss),
    fun h => recvOn_lossy h rfl (pending_all hss)⟩

theorem transports_of_not_dvd (sender : TsSender) (pid : Pid) {sections : List (List Byte)}
    (hv : ∀ b ∈ sections, ValidSection b) (h : ∀ b ∈ sections, ¬ 184 ∣ b.length) :
    Transports sender pid sections := by
  rintro ss rfl as
  have hmod : ∀ s ∈ ss, s.bytes.length % 184 ≠ 0 := fun s hs h0 =>
    h s.bytes (List.mem_map_of_mem hs) (Nat.dvd_of_mod_eq_zero h0)
  have hheads : ∀ s ∈ ss, Heads s := fun s hs =>
    ⟨hv s.bytes (List.mem_map_of_mem hs), fun h184 => absurd (by rw [h184]) (hmod s hs)⟩
  have hrecv : ss.map Section.received = ss.map Section.bytes :=
    List.map_congr_left fun s hs => received_eq (hmod s hs)
  rw [← hrecv]
  exact delivered_received sender hheads as

/-- Buffers that happen to hold what the packets should carry, but for one byte of each. -/
def spoiled (b : List Byte) : Section where
  bytes := b
  junk i k := if k = 3 then b.getD (184 * i + 3) 0 + 1 else b.getD (184 * i + k) 0

theorem spoiled_junk {b : List Byte} : (spoiled b).junk i k =
    if k = 3 then b.getD (184 * i + 3) 0 + 1 else b.getD (184 * i + k) 0 := rfl

theorem spoiled_heads {b : List Byte} (hv : ValidSection b) : Heads (spoiled b) :=
  ⟨hv, fun _ => ⟨by simp [spoiled, Section.data, ofList], by simp [spoiled, Section.data, ofList]⟩⟩

theorem spoiled_received {b : List Byte} (hv : ValidSection b) (h : 184 ∣ b.length) :
    (spoiled b).received ≠ b := by
  obtain ⟨h4, -⟩ := hv
  intro heq
  have h0 : b.length % 184 = 0 := Nat.mod_eq_zero_of_dvd h
  have hk : b.length - 184 + 3 < b.length := by omega
  have hcount : 184 * (tsPacketCount b.length - 1) = b.length - 184 := by unfold tsPacketCount; omega
  have hk' : b.length - 184 + 3 < (spoiled b).received.length := by rw [heq]; exact hk
  have hread : (spoiled b).received[b.length - 184 + 3] =
      b.getD (184 * (tsPacketCount b.length - 1) + 3) 0 + 1 := by
    refine (getElem_received (s := spoiled b) h0 (Nat.le_add_right _ _) _).trans ?_
    rw [spoiled_junk]
    exact if_pos (Nat.add_sub_cancel_left (b.length - 184) 3)
  have hsame : (spoiled b).received[b.length - 184 + 3] =
      b[b.length - 184 + 3] := List.getElem_of_eq heq _
  rw [hsame, hcount, List.getD_eq_getElem?_getD, List.getElem?_eq_getElem hk, Option.getD_some] at hread
  exact absurd hread (by simp)

theorem sentFrom_pid {p : TsPacket} (h : p ∈ sentFrom pid c ss) : p.pid = pid := by
  induction ss generalizing c with
  | nil => simp [sentFrom] at h
  | cons s ss ih =>
    rw [sentFrom, List.mem_append] at h
    rcases h with h | h
    · obtain ⟨j, -, rfl⟩ := List.mem_map.1 h
      rfl
    · exact ih h

theorem not_transports_of_dvd (sender : TsSender) (pid : Pid) {sections : List (List Byte)}
    (hv : ∀ b ∈ sections, ValidSection b) {b : List Byte} (hb : b ∈ sections) (h : 184 ∣ b.length) :
    ¬ Transports sender pid sections := by
  intro ht
  -- without losses, and with every packet alone on the channel
  let as := (sender.sendAll (fun _ => none) pid (sections.map spoiled)).map
    fun pkt => (⟨pkt, fun _ => 0⟩ : Arrival)
  have hon : packetsOn pid as = sender.sendAll (fun _ => none) pid (sections.map spoiled) := by
    have hmap : as.map Arrival.pkt = sender.sendAll (fun _ => none) pid (sections.map spoiled) := by
      rw [List.map_map]; exact List.map_id _
    rw [packetsOn, hmap, List.filter_eq_self]
    intro p hp
    rw [sendAll_eq] at hp
    simpa using sentFrom_pid hp
  have hheads : ∀ s ∈ sections.map spoiled, Heads s := by
    intro s hs
    obtain ⟨b, hb, rfl⟩ := List.mem_map.1 hs
    exact spoiled_heads (hv b hb)
  have hbytes : (sections.map spoiled).map Section.bytes = sections := by
    rw [List.map_map]; exact List.map_id _
  have hdel := (ht _ hbytes as).1 hon
  rw [(delivered_received sender hheads as).1 hon, List.map_map] at hdel
  have hall := List.map_inj_left.1 (hdel.trans (List.map_id sections).symm) b hb
  exact spoiled_received (hv b hb) h hall

/-- **Section transport.** Either sender and the receiver transport a sequence of sections over any
    channel exactly if no section has a multiple of 184 bytes. -/
theorem transports_iff (sender : TsSender) (pid : Pid) (sections : List (List Byte))
    (hv : ∀ b ∈ sections, ValidSection b) :
    Transports sender pid sections ↔ ∀ b ∈ sections, ¬ 184 ∣ b.length :=
  ⟨fun ht _ hb hd => not_transports_of_dvd sender pid hv hb hd ht, transports_of_not_dvd sender pid hv⟩

/-- Two sections of 5 bytes. -/
theorem transports_two : Transports .sp 17 [[0, 32, 0, 7, 9], [1, 32, 0, 8, 8]] :=
  (transports_iff .sp 17 _ (by decide)).2 (by decide)

/-- A section of 184 bytes: its only packet carries nothing of it. -/
theorem section_of_184_bytes_spoiled :
    ¬ ∀ (sender : TsSender) (pid : Pid) (sections : List (List Byte)),
      (∀ b ∈ sections, ValidSection b) → Transports sender pid sections := by
  intro h
  obtain ⟨b, hlen, h1, h2⟩ : ∃ b : List Byte, b.length = 184 ∧ b.getD 1 0 = 80 ∧ b.getD 2 0 = 11 :=
    ⟨0 :: 80 :: 11 :: List.replicate 181 0, by rw [List.length_cons, List.length_cons, List.length_cons,
      List.length_replicate], rfl, rfl⟩
  have hv : ∀ b' ∈ [b], ValidSection b' := by
    intro b' hb
    obtain rfl := List.mem_singleton.1 hb
    refine ⟨by omega, by omega, ?_⟩
    rw [get_section_length, ofList, ofList, h1, h2, hlen]; rfl
  exact not_transports_of_dvd .sp 17 hv (List.mem_singleton_self b) (by omega) (h .sp 17 [b] hv)

end Dvb
