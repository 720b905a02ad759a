import Mathlib.Data.List.Nodup
import Mathlib.Data.List.Pairwise
import Mathlib.Data.List.Perm.Basic
import Nctuns.Opt.Obwa

/-!
# The table of wavelengths at an edge node

The table lists the bursts in flight, in the order in which they have been announced, as long as an entry
is added behind one other at most and the first entry is removed for its own port only.
-/

namespace Opt

namespace Obwa

variable {c : Config} {s s' t : Obwa} {k l : Control} {goal next seq : Nat} {wave oport : Int}

/-! ## Bursts and events -/

/-- The burst of an event. -/
def Event.seq? : Event → Option Nat
  | .send_control_packet .. => none
  | .release_buffer seq .. => some seq
  | .release_wave _ _ seq => some seq

/-- The event ends the offset or the transmission of the burst `k`. -/
def Event.Of (c : Config) (k : Control) : Event → Prop
  | .send_control_packet .. => False
  | .release_buffer seq next _ wave => seq = k.SEQ ∧ next = k.dstIP ∧ wave = k.WAVE
  | .release_wave wave oport seq =>
    seq = k.SEQ ∧ wave = k.WAVE ∧ oport = c.RWA_get_outputport k.dstIP

/-- The event of a burst carries its number. -/
theorem Event.Of.seq?_eq {e : Event} (h : e.Of c k) : e.seq? = some k.SEQ := by
  cases e with
  | send_control_packet next seq => cases h
  | release_buffer seq next sendlength wave => rw [seq?, h.1]
  | release_wave wave oport seq => rw [seq?, h.1]

/-- The pending events of bursts. -/
def bursts (s : Obwa) : List Event := (s.events.map Prod.snd).filter fun e => e.seq?.isSome

/-- The table and the bursts are the same. -/
structure SameBursts (s s' : Obwa) : Prop where
  WAT : s'.WAT = s.WAT
  Send_seq : s'.Send_seq = s.Send_seq
  controls : s'.controls = s.controls
  released : s'.released = s.released
  bursts : s'.bursts = s.bursts

theorem SameBursts.refl (s : Obwa) : SameBursts s s := ⟨rfl, rfl, rfl, rfl, rfl⟩

theorem SameBursts.trans (h : SameBursts s s') (h' : SameBursts s' t) : SameBursts s t :=
  ⟨h'.WAT.trans h.WAT, h'.Send_seq.trans h.Send_seq, h'.controls.trans h.controls,
    h'.released.trans h.released, h'.bursts.trans h.bursts⟩

theorem sameBursts_put (ptr : Option Buffer_list) : SameBursts s (s.put goal ptr) :=
  ⟨rfl, rfl, rfl, rfl, rfl⟩

/-- A timer is started. -/
theorem sameBursts_run : SameBursts s (s.Set_AssembleTimer_run_goallist c goal) := by
  refine ⟨rfl, rfl, rfl, rfl, ?_⟩
  simp [bursts, Set_AssembleTimer_run_goallist, Event.seq?]

/-- A buffer is deleted. -/
theorem sameBursts_delete : SameBursts s (s.delete_buffer goal) := by
  unfold delete_buffer
  cases s.Buffer goal with
  | none => exact SameBursts.refl s
  | some ptr => exact ⟨rfl, rfl, rfl, rfl, rfl⟩

/-! ## Announcing a burst -/

/-- The wavelength for `next` has been put into the table and, if there is a path, a burst announced. -/
structure Reserved (c : Config) (s : Obwa) (next : Nat) (s' : Obwa) (k : Control) : Prop where
  dstIP : k.dstIP = next
  SEQ : k.SEQ = s.Send_seq
  WAVE : k.WAVE = c.wave next
  WAT : s'.WAT = addto_WA_table (k.entry c) s.WAT
  Send_seq : s'.Send_seq = s.Send_seq + 1
  released : s'.released = s.released
  announced : c.GetPath_Length next < 0 ∧ s'.controls = s.controls ∨
    0 ≤ c.GetPath_Length next ∧ s'.controls = s.controls ++ [k] ∧
      ∃ r_dur, s'.bursts = s.bursts ++ [.release_buffer k.SEQ next r_dur k.WAVE]

/-- What happened before the reservation. -/
theorem Reserved.of_same (h : Reserved c s' next t k) (hs : SameBursts s s') : Reserved c s next t k := by
  refine ⟨h.dstIP, ?_, h.WAVE, ?_, ?_, ?_, ?_⟩
  · rw [h.SEQ, hs.Send_seq]
  · rw [h.WAT, hs.WAT]
  · rw [h.Send_seq, hs.Send_seq]
  · rw [h.released, hs.released]
  · rw [← hs.controls, ← hs.bursts]
    exact h.announced

/-- What happens behind the reservation. -/
theorem Reserved.then_same (h : Reserved c s next s' k) (ht : SameBursts s' t) :
    Reserved c s next t k := by
  refine ⟨h.dstIP, h.SEQ, h.WAVE, ?_, ?_, ?_, ?_⟩
  · rw [ht.WAT, h.WAT]
  · rw [ht.Send_seq, h.Send_seq]
  · rw [ht.released, h.released]
  · rw [ht.controls, ht.bursts]
    exact h.announced

/-- Whether a wavelength is taken depends on the table. -/
theorem takes_congr (c : Config) (next : Nat) (h : s'.WAT = s.WAT) : s'.Takes c next ↔ s.Takes c next := by
  unfold Takes Is_avail_wave
  rw [h]

/-- What `send_control_packet` does to the table. -/
theorem send_control_packet_table (c : Config) (s : Obwa) (next seq : Nat) :
    ¬ (s.Due next seq ∧ s.Takes c next) ∧ SameBursts s (s.send_control_packet c next seq) ∨
      (s.Due next seq ∧ s.Takes c next) ∧ ∃ k, Reserved c s next (s.send_control_packet c next seq) k := by
  by_cases hactive : s.Is_Active_AssembleTimer_event next seq
  · obtain ⟨ptr, hptr, hseq⟩ := hactive
    have hptr : s.Buffer next = some ptr := hptr
    have hbuffer : (s.Set_AssembleTimer_stop_goallist next).Buffer next =
        some { ptr with AssembleTimer_active_seq := 0 } := by
      simp [Set_AssembleTimer_stop_goallist, setActive, put, hptr]
    have hstop : SameBursts s (s.Set_AssembleTimer_stop_goallist next) := sameBursts_put _
    have hdue : s.Due next seq ↔ ptr.packet_length ≠ 0 := by
      simp [Due, hptr, hseq]
    have havail : (s.Set_AssembleTimer_stop_goallist next).Is_avail_wave c (c.wave next)
        (c.RWA_get_outputport next) ↔ s.Is_avail_wave c (c.wave next) (c.RWA_get_outputport next) :=
      Iff.rfl
    unfold send_control_packet announce
    rw [if_neg (not_not.2 ⟨ptr, hptr, hseq⟩)]
    simp only [hbuffer, havail]
    split_ifs with hav hlen hwave hpath
    · left
      refine ⟨?_, hstop⟩
      intro h
      exact hdue.1 h.1 hlen
    · left
      refine ⟨?_, hstop.trans sameBursts_delete⟩
      intro h
      have hpos := h.2.2
      omega
    · right
      refine ⟨⟨hdue.2 hlen, hav, by omega⟩, ?_⟩
      exact ⟨⟨next, s.Send_seq, c.RWA_get_wave next, 0, c.wave next, 0⟩, rfl, rfl, rfl, rfl, rfl, rfl,
        Or.inl ⟨hpath, rfl⟩⟩
    · right
      refine ⟨⟨hdue.2 hlen, hav, by omega⟩, ?_⟩
      refine ⟨_, rfl, rfl, rfl, rfl, rfl, rfl, Or.inr ⟨by omega, rfl, ptr.packet_length, ?_⟩⟩
      simp [bursts, Event.seq?, Set_AssembleTimer_stop_goallist, setActive, put]
    · left
      refine ⟨?_, hstop⟩
      intro h
      exact hav h.2.1
  · left
    refine ⟨?_, ?_⟩
    · intro h
      obtain ⟨ptr, hptr, hseq, -⟩ := h.1
      exact hactive ⟨ptr, hptr, hseq⟩
    · unfold send_control_packet
      rw [if_pos hactive]
      exact SameBursts.refl s

/-- A timer is due where there are packets. -/
theorem due_setActive (s : Obwa) {ptr : Buffer_list} (h : s.Buffer next = some ptr) (seq : Nat) :
    (s.setActive next seq).Due next seq ↔ ptr.packet_length ≠ 0 := by
  simp [Due, setActive, put, h]

/-- What `putinto_buffer` does to the table. -/
theorem putinto_buffer_table (c : Config) (s : Obwa) (pkt : Pkt) (next : Nat) :
    ¬ (s.Overflows c pkt next ∧ s.Takes c next) ∧ SameBursts s (s.putinto_buffer c pkt.headed next) ∨
      (s.Overflows c pkt next ∧ s.Takes c next) ∧
        ∃ k, Reserved c s next (s.putinto_buffer c pkt.headed next) k := by
  unfold putinto_buffer
  have hput : SameBursts s (s.put next (some (s.added pkt.headed next))) := sameBursts_put _
  by_cases hsend : (s.added pkt.headed next).packet_length > c.Send_packet_length
  · rw [if_pos hsend]
    let u := (s.put next (some (s.added pkt.headed next))).Set_AssembleTimer_stop_goallist next
    let v := { u with AssembleTimer_seqnum := u.AssembleTimer_seqnum + 1 }
    have hstop : SameBursts s (v.setActive next (u.AssembleTimer_seqnum + 1)) :=
      ⟨rfl, rfl, rfl, rfl, rfl⟩
    have hbuffer : v.Buffer next = some { s.added pkt.headed next with AssembleTimer_active_seq := 0 } := by
      simp [v, u, Set_AssembleTimer_stop_goallist, setActive, put]
    have hdue : (v.setActive next (u.AssembleTimer_seqnum + 1)).Due next (u.AssembleTimer_seqnum + 1) ↔
        s.Overflows c pkt next := by
      rw [due_setActive v hbuffer]
      simp [Overflows, hsend]
    have htakes := takes_congr c next hstop.WAT
    rcases send_control_packet_table c (v.setActive next (u.AssembleTimer_seqnum + 1)) next
      (u.AssembleTimer_seqnum + 1) with ⟨hno, hsame⟩ | ⟨hyes, k, hk⟩
    · left
      rw [hdue, htakes] at hno
      exact ⟨hno, hstop.trans hsame⟩
    · right
      rw [hdue, htakes] at hyes
      exact ⟨hyes, k, hk.of_same hstop⟩
  · rw [if_neg hsend]
    left
    refine ⟨?_, ?_⟩
    · intro h
      exact hsend h.1.1
    · split_ifs
      · exact hput.trans sameBursts_delete
      · exact hput

/-- What `send` does to the table. -/
theorem send_table (c : Config) (s : Obwa) (pkt : Pkt) (next : Nat) :
    ¬ (s.Overflows c pkt next ∧ s.Takes c next) ∧ SameBursts s (s.send c pkt next) ∨
      (s.Overflows c pkt next ∧ s.Takes c next) ∧ ∃ k, Reserved c s next (s.send c pkt next) k := by
  unfold send
  let u : Obwa := { s with given := s.given ++ [(next, pkt.headed)] }
  have hu : SameBursts s u := ⟨rfl, rfl, rfl, rfl, rfl⟩
  have hput : ¬ (s.Overflows c pkt next ∧ s.Takes c next) ∧
      SameBursts u (u.putinto_buffer c pkt.headed next) ∨
        (s.Overflows c pkt next ∧ s.Takes c next) ∧
          ∃ k, Reserved c u next (u.putinto_buffer c pkt.headed next) k :=
    putinto_buffer_table c u pkt next
  rcases hput with ⟨hno, hsame⟩ | ⟨hyes, k, hk⟩
  · left
    refine ⟨hno, ?_⟩
    show SameBursts s (ite (u.Is_AssembleTimer_running_goallist next) _ _)
    split_ifs
    · exact hu.trans hsame
    · exact hu.trans (hsame.trans sameBursts_run)
  · right
    refine ⟨hyes, k, ?_⟩
    show Reserved c s next (ite (u.Is_AssembleTimer_running_goallist next) _ _) k
    split_ifs
    · exact hk.of_same hu
    · exact (hk.then_same sameBursts_run).of_same hu

/-! ## Releasing a burst -/

/-- The end of the transmission of a burst has been scheduled. -/
structure Transmits (s : Obwa) (e : Event) (s' : Obwa) : Prop where
  WAT : s'.WAT = s.WAT
  Send_seq : s'.Send_seq = s.Send_seq
  controls : s'.controls = s.controls
  released : s'.released = s.released
  bursts : s'.bursts = s.bursts ++ [e]

/-- What `release_buffer` does to the table: a burst whose buffer is gone is taken out, another one keeps
    its entry. -/
theorem release_buffer_table (c : Config) (s : Obwa) (seq goal : Nat) (sendlength wave : Int) :
    s.release_buffer c seq goal sendlength wave = s.delwave_byseq seq ∨
      ∃ s', s.release_buffer c seq goal sendlength wave = .ok s' ∧
        (SameBursts s s' ∨ Transmits s (.release_wave wave (c.RWA_get_outputport goal) seq) s') := by
  unfold release_buffer
  cases s.Buffer goal with
  | none =>
    left
    rfl
  | some ptr =>
    right
    by_cases hzero : ptr.pkts ≠ [] ∧ u8 wave ≤ 0
    · refine ⟨_, if_pos hzero, Or.inl ?_⟩
      exact ⟨rfl, rfl, rfl, rfl, rfl⟩
    · refine ⟨_, if_neg hzero, Or.inr ?_⟩
      set done := s.sendLoop c seq goal sendlength wave ⟨0, 0, [], ptr.pkts, false⟩ ptr.pkts
      have hput : SameBursts s
          { s.put goal (some (ptr.left done)) with scheduled := s.scheduled ++ done.scheduled } :=
        ⟨rfl, rfl, rfl, rfl, rfl⟩
      have hrearm : ∀ u : Obwa, SameBursts u (u.rearm c goal done.temp) := by
        intro u
        unfold rearm
        split_ifs
        · exact SameBursts.refl u
        · exact sameBursts_run
      have hsame := hput.trans (hrearm _)
      refine ⟨hsame.WAT, hsame.Send_seq, hsame.controls, hsame.released, ?_⟩
      rw [← hsame.bursts]
      simp [bursts, Send_release_wave_Event, Event.seq?]

/-! ## Bursts of a step -/

/-- Bursts are announced and released, and none is both in one step. -/
structure Grows (s s' : Obwa) : Prop where
  controls : ∃ new, s'.controls = s.controls ++ new ∧ ∀ k ∈ new, k.SEQ ∉ s'.released
  released : s.released ⊆ s'.released

/-- No control packet more, and nothing taken back. -/
theorem Grows.of_controls (hcontrols : s'.controls = s.controls) (hreleased : s.released ⊆ s'.released) :
    Grows s s' := by
  refine ⟨⟨[], by rw [hcontrols, List.append_nil], ?_⟩, hreleased⟩
  intro k hk
  cases hk

theorem SameBursts.grows (h : SameBursts s s') : Grows s s' :=
  Grows.of_controls h.controls (by rw [h.released]; exact List.Subset.refl _)

theorem Transmits.grows {e : Event} (h : Transmits s e s') : Grows s s' :=
  Grows.of_controls h.controls (by rw [h.released]; exact List.Subset.refl _)

/-- A reservation is given back by its number. -/
theorem delwave_byseq_grows (h : s.delwave_byseq seq = .ok s') : Grows s s' := by
  unfold Obwa.delwave_byseq at h
  split at h
  · cases h
  · obtain rfl := Except.ok.inj h
    exact Grows.of_controls rfl (List.subset_append_left ..)

/-- A reservation is given back by its wavelength. -/
theorem release_wave_grows (h : s.release_wave wave oport seq = .ok s') : Grows s s' := by
  unfold Obwa.release_wave at h
  split at h
  · cases h
  · obtain rfl := Except.ok.inj h
    exact Grows.of_controls rfl (List.subset_append_left ..)

/-- A reservation, under a number that is new. -/
theorem Reserved.grows (h : Reserved c s next s' k) (hpast : ∀ seq ∈ s.released, seq < s.Send_seq) :
    Grows s s' := by
  rcases h.announced with ⟨-, hcontrols⟩ | ⟨-, hcontrols, -⟩
  · exact Grows.of_controls hcontrols (by rw [h.released]; exact List.Subset.refl _)
  · refine ⟨⟨[k], hcontrols, ?_⟩, by rw [h.released]; exact List.Subset.refl _⟩
    intro l hl hmem
    obtain rfl := List.mem_singleton.1 hl
    rw [h.released, h.SEQ] at hmem
    exact absurd (hpast _ hmem) (Nat.lt_irrefl _)

/-! ## The invariant -/

/-- What holds of the table and of the bursts on their way. -/
structure TableInv (c : Config) (s : Obwa) : Prop where
  exact : TableExact c s
  seqs : (s.controls.map Control.SEQ).Nodup
  fresh : ∀ k ∈ s.controls, k.SEQ < s.Send_seq
  past : ∀ seq ∈ s.released, seq < s.Send_seq
  pending : ∀ e ∈ s.bursts, ∃ k ∈ s.inFlight, e.Of c k
  once : (s.bursts.filterMap Event.seq?).Nodup

theorem mem_inFlight : k ∈ s.inFlight ↔ k ∈ s.controls ∧ k.SEQ ∉ s.released := by
  simp [inFlight]

theorem inFlight_congr (hcontrols : s'.controls = s.controls) (hreleased : s'.released = s.released) :
    s'.inFlight = s.inFlight := by
  unfold inFlight
  rw [hcontrols, hreleased]

/-- Nothing is reserved. -/
theorem init_tableInv : TableInv c init := by
  refine ⟨⟨List.Pairwise.nil, rfl⟩, List.nodup_nil, ?_, ?_, ?_, List.nodup_nil⟩
  · intro k hk
    cases hk
  · intro seq hseq
    cases hseq
  · intro e he
    cases he

namespace TableInv

/-- A number is that of one burst. -/
theorem eq_of_SEQ (h : TableInv c s) (hk : k ∈ s.inFlight) (hl : l ∈ s.inFlight)
    (hkl : k.SEQ = l.SEQ) : k = l :=
  List.inj_on_of_nodup_map h.seqs (mem_inFlight.1 hk).1 (mem_inFlight.1 hl).1 hkl

/-- A wavelength of a port is that of one burst. -/
theorem eq_of_clash (h : TableInv c s) (hk : k ∈ s.inFlight) (hl : l ∈ s.inFlight)
    (hkl : Clash c k l) : k = l := by
  by_contra hne
  have hsymm : Std.Symm fun k l => ¬ Clash c k l := by
    constructor
    intro x y hxy hyx
    exact hxy ⟨hyx.1.symm, hyx.2.symm⟩
  exact h.exact.exclusive.forall hk hl hne hkl

/-- A burst on its way has its entry. -/
theorem entry_mem (h : TableInv c s) (hk : k ∈ s.inFlight) : k.entry c ∈ s.WAT := by
  rw [h.exact.table]
  exact List.mem_map_of_mem hk

/-- An entry is that of a burst on its way. -/
theorem exists_of_mem (h : TableInv c s) {w : Wave_assign_table} (hw : w ∈ s.WAT) :
    ∃ k ∈ s.inFlight, k.entry c = w := by
  rw [h.exact.table] at hw
  exact List.mem_map.1 hw

/-- The bursts stay as they are. -/
theorem same (h : TableInv c s) (hs : SameBursts s s') : TableInv c s' := by
  have hflight := inFlight_congr hs.controls hs.released
  refine ⟨⟨?_, ?_⟩, ?_, ?_, ?_, ?_, ?_⟩
  · rw [hflight]
    exact h.exact.exclusive
  · rw [hflight, hs.WAT]
    exact h.exact.table
  · rw [hs.controls]
    exact h.seqs
  · rw [hs.controls, hs.Send_seq]
    exact h.fresh
  · rw [hs.released, hs.Send_seq]
    exact h.past
  · rw [hs.bursts, hflight]
    exact h.pending
  · rw [hs.bursts]
    exact h.once

/-- The transmission of a burst goes on. -/
theorem transmit (h : TableInv c s) (hk : k ∈ s.inFlight) {e : Event} (hof : e.Of c k)
    (honce : ∀ e' ∈ s.bursts, e'.seq? ≠ some k.SEQ) (ht : Transmits s e s') : TableInv c s' := by
  have hflight := inFlight_congr ht.controls ht.released
  refine ⟨⟨?_, ?_⟩, ?_, ?_, ?_, ?_, ?_⟩
  · rw [hflight]
    exact h.exact.exclusive
  · rw [hflight, ht.WAT]
    exact h.exact.table
  · rw [ht.controls]
    exact h.seqs
  · rw [ht.controls, ht.Send_seq]
    exact h.fresh
  · rw [ht.released, ht.Send_seq]
    exact h.past
  · intro e' he'
    rw [ht.bursts] at he'
    rw [hflight]
    rcases List.mem_append.1 he' with he' | he'
    · exact h.pending e' he'
    · obtain rfl := List.mem_singleton.1 he'
      exact ⟨k, hk, hof⟩
  · rw [ht.bursts, List.filterMap_append]
    refine List.nodup_append.2 ⟨h.once, ?_, ?_⟩
    · simp [hof.seq?_eq]
    · intro x hx y hy hxy
      obtain ⟨e', he', hxe⟩ := List.mem_filterMap.1 hx
      have hy : y = k.SEQ := by simpa [hof.seq?_eq, eq_comm] using hy
      exact honce e' he' (by rw [hxe, hxy, hy])

/-! ### New bursts -/

/-- The numbers of bursts are past. -/
theorem seq_lt (h : TableInv c s) {e : Event} (he : e ∈ s.bursts) (hseq : seq ∈ e.seq?) :
    seq < s.Send_seq := by
  obtain ⟨k, hk, hof⟩ := h.pending e he
  rw [hof.seq?_eq] at hseq
  obtain rfl := Option.some.inj hseq
  exact h.fresh k (mem_inFlight.1 hk).1

/-- One burst more is on its way. -/
theorem inFlight_append (h : TableInv c s) (hSEQ : k.SEQ = s.Send_seq)
    (hcontrols : s'.controls = s.controls ++ [k]) (hreleased : s'.released = s.released) :
    s'.inFlight = s.inFlight ++ [k] := by
  have hk : k.SEQ ∉ s.released := by
    intro hmem
    exact absurd (h.past _ hmem) (by omega)
  unfold inFlight
  rw [hcontrols, hreleased, List.filter_append, List.filter_cons_of_pos (by simpa using hk),
    List.filter_nil]

/-- **A reservation** with room in the table. -/
theorem reserved (h : TableInv c s) (hk : Reserved c s next s' k) (htakes : s.Takes c next)
    (hroom : s.Room c next) : TableInv c s' := by
  obtain ⟨hlen, hpath⟩ := hroom
  rcases hk.announced with ⟨hneg, -⟩ | ⟨-, hcontrols, r_dur, hbursts⟩
  · omega
  have hflight := h.inFlight_append hk.SEQ hcontrols hk.released
  have hWAT : s'.WAT = s.WAT ++ [k.entry c] := by
    rw [hk.WAT]
    match s.WAT, hlen with
    | [], _ => rfl
    | [_], _ => rfl
  have hfresh : ∀ l ∈ s.controls, l.SEQ ≠ k.SEQ := by
    intro l hl
    have hlt := h.fresh l hl
    have hSEQ := hk.SEQ
    omega
  refine ⟨⟨?_, ?_⟩, ?_, ?_, ?_, ?_, ?_⟩
  · rw [hflight]
    refine List.pairwise_append.2 ⟨h.exact.exclusive, List.pairwise_singleton .., ?_⟩
    intro l hl m hm hclash
    obtain rfl := List.mem_singleton.1 hm
    refine htakes.1.1 _ (h.entry_mem hl) ⟨?_, ?_⟩
    · exact hclash.1.trans hk.WAVE
    · rw [← hk.dstIP]
      exact hclash.2
  · rw [hflight, hWAT, List.map_append, h.exact.table]
    rfl
  · rw [hcontrols, List.map_append]
    refine List.nodup_append.2 ⟨h.seqs, List.nodup_singleton _, ?_⟩
    intro x hx y hy
    obtain ⟨l, hl, rfl⟩ := List.mem_map.1 hx
    obtain rfl := List.mem_singleton.1 hy
    exact hfresh l hl
  · intro l hl
    rw [hcontrols] at hl
    rw [hk.Send_seq]
    rcases List.mem_append.1 hl with hl | hl
    · exact Nat.lt_succ_of_lt (h.fresh l hl)
    · obtain rfl := List.mem_singleton.1 hl
      rw [hk.SEQ]
      exact Nat.lt_succ_self _
  · intro seq hseq
    rw [hk.released] at hseq
    rw [hk.Send_seq]
    exact Nat.lt_succ_of_lt (h.past seq hseq)
  · intro e he
    rw [hbursts] at he
    rw [hflight]
    rcases List.mem_append.1 he with he | he
    · obtain ⟨l, hl, hof⟩ := h.pending e he
      exact ⟨l, List.mem_append_left _ hl, hof⟩
    · obtain rfl := List.mem_singleton.1 he
      exact ⟨k, List.mem_append_right _ (List.mem_singleton_self k), rfl, hk.dstIP.symm, rfl⟩
  · rw [hbursts, List.filterMap_append]
    refine List.nodup_append.2 ⟨h.once, List.nodup_singleton _, ?_⟩
    intro x hx y hy
    obtain ⟨e, he, hxe⟩ := List.mem_filterMap.1 hx
    have hlt := h.seq_lt he hxe
    have hSEQ := hk.SEQ
    have hy : y = k.SEQ := by simpa [Event.seq?] using hy
    omega

/-- A new entry without room or without a path spoils the table. -/
theorem room_of_exact (h : TableInv c s) (hk : Reserved c s next s' k) (hexact : TableExact c s') :
    s.Room c next := by
  have hmem : k.entry c ∈ s'.WAT := by
    rw [hk.WAT]
    cases s.WAT <;> simp [addto_WA_table]
  rcases hk.announced with ⟨-, hcontrols⟩ | ⟨hpath, hcontrols, -⟩
  · rw [hexact.table, inFlight_congr hcontrols hk.released] at hmem
    obtain ⟨l, hl, hentry⟩ := List.mem_map.1 hmem
    have hlt := h.fresh l (mem_inFlight.1 hl).1
    have hSEQ : l.SEQ = k.SEQ := congrArg Wave_assign_table.SeqID hentry
    have hkSEQ := hk.SEQ
    omega
  · refine ⟨?_, hpath⟩
    have hlen := congrArg List.length hexact.table
    rw [hk.WAT, h.inFlight_append hk.SEQ hcontrols hk.released, List.map_append, ← h.exact.table,
      List.length_append, List.length_map] at hlen
    have haddto : (addto_WA_table (k.entry c) s.WAT).length ≤ 2 := by
      cases s.WAT <;> simp [addto_WA_table]
    simp only [List.length_singleton] at hlen
    omega

/-! ### Released bursts -/

/-- Where at most one element is hit, the first one is the only one. -/
theorem eraseP_eq_filter {α : Type*} {p : α → Bool} {xs : List α}
    (h : xs.Pairwise fun x y => ¬ (p x = true ∧ p y = true)) :
    xs.eraseP p = xs.filter fun x => ! p x := by
  induction xs with
  | nil => rfl
  | cons x xs ih =>
    obtain ⟨hx, hxs⟩ := List.pairwise_cons.1 h
    cases hp : p x with
    | true =>
      have hrest : xs.filter (fun y => ! p y) = xs := by
        refine List.filter_eq_self.2 ?_
        intro y hy
        cases hpy : p y with
        | true => exact absurd ⟨hp, hpy⟩ (hx y hy)
        | false => rfl
      rw [List.eraseP_cons_of_pos hp, List.filter_cons_of_neg (by simp [hp]), hrest]
    | false => rw [List.eraseP_cons_of_neg (by simp [hp]), List.filter_cons_of_pos (by simp [hp]), ih hxs]

theorem nodup (h : TableInv c s) : s.inFlight.Nodup :=
  (List.Nodup.of_map _ h.seqs).filter _

/-- A test that one burst in flight passes finds its entry. -/
theorem eraseP_table (h : TableInv c s) (hk : k ∈ s.inFlight) {p : Wave_assign_table → Bool}
    (hp : ∀ l ∈ s.inFlight, p (l.entry c) = true ↔ l = k) :
    s.WAT.eraseP p = s.WAT.filter fun w => w.SeqID ≠ k.SEQ := by
  have honce : s.inFlight.Pairwise fun x y =>
      ¬ ((p ∘ Control.entry c) x = true ∧ (p ∘ Control.entry c) y = true) := by
    refine h.nodup.imp_of_mem ?_
    intro x y hx hy hne hxy
    exact hne (((hp x hx).1 hxy.1).trans ((hp y hy).1 hxy.2).symm)
  rw [h.exact.table, List.eraseP_map, eraseP_eq_filter honce, List.filter_map]
  refine congrArg _ (List.filter_congr ?_)
  intro l hl
  have hSEQ : l.SEQ = k.SEQ ↔ l = k := by
    constructor
    · exact h.eq_of_SEQ hl hk
    · intro hlk
      rw [hlk]
  have hpl : p (l.entry c) = decide (l.SEQ = k.SEQ) := by
    rw [Bool.eq_iff_iff, hp l hl, decide_eq_true_iff, hSEQ]
  show (! p (l.entry c)) = decide (l.SEQ ≠ k.SEQ)
  rw [hpl, decide_not]

/-- **A burst has left**, and its entry with it. -/
theorem release (h : TableInv c s) (hk : k ∈ s.inFlight)
    (hWAT : s'.WAT = s.WAT.filter fun w => w.SeqID ≠ k.SEQ) (hseq : s'.Send_seq = s.Send_seq)
    (hcontrols : s'.controls = s.controls) (hreleased : s'.released = s.released ++ [k.SEQ])
    (hbursts : s'.bursts = s.bursts) (honce : ∀ e ∈ s.bursts, e.seq? ≠ some k.SEQ) :
    TableInv c s' := by
  have hflight : s'.inFlight = s.inFlight.filter fun l => l.SEQ ≠ k.SEQ := by
    unfold inFlight
    rw [hcontrols, hreleased, List.filter_filter]
    refine List.filter_congr ?_
    intro l _
    by_cases hl : l.SEQ = k.SEQ <;> simp [hl]
  refine ⟨⟨?_, ?_⟩, ?_, ?_, ?_, ?_, ?_⟩
  · rw [hflight]
    exact h.exact.exclusive.filter _
  · rw [hflight, hWAT, h.exact.table, List.filter_map]
    rfl
  · rw [hcontrols]
    exact h.seqs
  · rw [hcontrols, hseq]
    exact h.fresh
  · intro seq hmem
    rw [hreleased] at hmem
    rw [hseq]
    rcases List.mem_append.1 hmem with hmem | hmem
    · exact h.past seq hmem
    · obtain rfl := List.mem_singleton.1 hmem
      exact h.fresh k (mem_inFlight.1 hk).1
  · intro e he
    rw [hbursts] at he
    obtain ⟨l, hl, hof⟩ := h.pending e he
    refine ⟨l, ?_, hof⟩
    rw [hflight, List.mem_filter]
    refine ⟨hl, ?_⟩
    have hne := honce e he
    rw [hof.seq?_eq] at hne
    simpa using hne
  · rw [hbursts]
    exact h.once

/-! ### Events -/

/-- The event that happens is that of a burst in flight, and it has no other one. -/
theorem fired (h : TableInv c s) {i time : Nat} {e : Event} (he : s.events[i]? = some (time, e)) :
    TableInv c { s with events := s.events.eraseIdx i } ∧
      (e.seq?.isSome → (∃ k ∈ s.inFlight, e.Of c k) ∧
        ∀ e' ∈ bursts { s with events := s.events.eraseIdx i }, e'.seq? ≠ e.seq?) := by
  obtain ⟨hlt, hget⟩ := List.getElem?_eq_some_iff.1 he
  have hsub : (bursts { s with events := s.events.eraseIdx i }).Sublist s.bursts :=
    ((List.eraseIdx_sublist s.events i).map _).filter _
  refine ⟨⟨⟨h.exact.exclusive, h.exact.table⟩, h.seqs, h.fresh, h.past, ?_, ?_⟩, ?_⟩
  · intro e' he'
    exact h.pending e' (hsub.subset he')
  · exact h.once.sublist (hsub.filterMap _)
  · intro hburst
    have hperm : (e :: bursts { s with events := s.events.eraseIdx i }).Perm s.bursts := by
      have hevents := ((List.getElem_cons_eraseIdx_perm hlt).map Prod.snd).filter fun e => e.seq?.isSome
      rw [hget, List.map_cons,
        List.filter_cons_of_pos (p := fun e : Event => e.seq?.isSome) hburst] at hevents
      exact hevents
    obtain ⟨seq, hseq⟩ := Option.isSome_iff_exists.1 hburst
    refine ⟨h.pending e (hperm.subset List.mem_cons_self), ?_⟩
    intro e' he' heq
    have honce := (hperm.filterMap Event.seq?).nodup_iff.2 h.once
    rw [List.filterMap_cons_some hseq] at honce
    exact (List.nodup_cons.1 honce).1 (List.mem_filterMap.2 ⟨e', he', heq.trans hseq⟩)

/-- The entry of a burst is found by its number. -/
theorem delwave_byseq (h : TableInv c s) (hk : k ∈ s.inFlight)
    (honce : ∀ e ∈ s.bursts, e.seq? ≠ some k.SEQ) :
    ∃ s', s.delwave_byseq k.SEQ = .ok s' ∧ TableInv c s' := by
  unfold Obwa.delwave_byseq
  have hmem := h.entry_mem hk
  have herase : s.WAT.eraseP (fun w => w.SeqID = k.SEQ) = s.WAT.filter fun w => w.SeqID ≠ k.SEQ := by
    refine h.eraseP_table hk ?_
    intro l hl
    rw [decide_eq_true_iff]
    constructor
    · exact h.eq_of_SEQ hl hk
    · intro hlk
      rw [hlk]
      rfl
  cases hWAT : s.WAT with
  | nil =>
    rw [hWAT] at hmem
    cases hmem
  | cons wat WAT =>
    refine ⟨_, rfl, h.release hk ?_ rfl rfl rfl rfl honce⟩
    rw [← herase, hWAT, List.eraseP_cons]
    by_cases hseq : wat.SeqID = k.SEQ <;> simp [hseq]

/-- A release finds the table. -/
theorem release_wave_ok (h : TableInv c s) (hk : k ∈ s.inFlight) (oport : Int) :
    ∃ s', s.release_wave k.WAVE oport k.SEQ = .ok s' := by
  have hmem := h.entry_mem hk
  unfold Obwa.release_wave
  cases hWAT : s.WAT with
  | nil =>
    rw [hWAT] at hmem
    cases hmem
  | cons wat WAT => exact ⟨_, rfl⟩

/-- The entry of a burst is found by its wavelength and port, when the first entry is not another one with
    the wavelength. -/
theorem release_wave (h : TableInv c s) (hk : k ∈ s.inFlight)
    (honce : ∀ e ∈ s.bursts, e.seq? ≠ some k.SEQ)
    (hfirst : ∀ w ∈ s.WAT.head?, w.wave = k.WAVE → w.output_port = c.RWA_get_outputport k.dstIP)
    (hs : s.release_wave k.WAVE (c.RWA_get_outputport k.dstIP) k.SEQ = .ok s') : TableInv c s' := by
  unfold Obwa.release_wave at hs
  have herase : s.WAT.eraseP (fun w => w.wave = k.WAVE ∧ w.output_port = c.RWA_get_outputport k.dstIP) =
      s.WAT.filter fun w => w.SeqID ≠ k.SEQ := by
    refine h.eraseP_table hk ?_
    intro l hl
    rw [decide_eq_true_iff]
    constructor
    · exact h.eq_of_clash hl hk
    · intro hlk
      rw [hlk]
      exact ⟨rfl, rfl⟩
  cases hWAT : s.WAT with
  | nil =>
    rw [hWAT] at hs
    cases hs
  | cons wat WAT =>
    simp only [hWAT] at hs
    obtain rfl := Except.ok.inj hs
    refine h.release hk ?_ rfl rfl rfl rfl honce
    rw [← herase, hWAT, List.eraseP_cons]
    by_cases hwave : wat.wave = k.WAVE
    · have hport := hfirst wat (by rw [hWAT]; rfl) hwave
      simp [hwave, hport]
    · simp [hwave]

/-- When the first entry has the wavelength for another port, the wrong one is removed. -/
theorem first_of_exact (h : TableInv c s) (hk : k ∈ s.inFlight)
    (hs : s.release_wave k.WAVE (c.RWA_get_outputport k.dstIP) k.SEQ = .ok s') (hexact : TableExact c s') :
    ∀ w ∈ s.WAT.head?, w.wave = k.WAVE → w.output_port = c.RWA_get_outputport k.dstIP := by
  intro w hw hwave
  by_contra hport
  unfold Obwa.release_wave at hs
  cases hWAT : s.WAT with
  | nil =>
    rw [hWAT] at hw
    cases hw
  | cons wat WAT =>
    rw [hWAT] at hw
    obtain rfl : wat = w := Option.some.inj hw
    simp only [hWAT, if_pos hwave] at hs
    obtain rfl := Except.ok.inj hs
    obtain ⟨l, hl, hentry⟩ := h.exists_of_mem (hWAT ▸ List.mem_cons_self : wat ∈ s.WAT)
    have hlk : l.SEQ ≠ k.SEQ := by
      intro hSEQ
      obtain rfl := h.eq_of_SEQ hl hk hSEQ
      exact hport (hentry ▸ rfl)
    have hwat : wat ∈ WAT := by
      have htable : WAT = _ := hexact.table
      rw [htable, ← hentry]
      refine List.mem_map_of_mem (mem_inFlight.2 ⟨(mem_inFlight.1 hl).1, ?_⟩)
      intro hmem
      rcases List.mem_append.1 hmem with hmem | hmem
      · exact (mem_inFlight.1 hl).2 hmem
      · exact hlk (List.mem_singleton.1 hmem)
    have hnodup : s.WAT.Nodup := by
      rw [h.exact.table]
      refine h.nodup.map_on ?_
      intro x hx y hy hxy
      exact h.eq_of_SEQ hx hy (congrArg Wave_assign_table.SeqID hxy)
    rw [hWAT] at hnodup
    exact (List.nodup_cons.1 hnodup).1 hwat

/-! ### Steps -/

/-- **An event.**. -/
theorem handle (h : TableInv c s) {e : Event}
    (hburst : e.seq?.isSome → (∃ k ∈ s.inFlight, e.Of c k) ∧ ∀ e' ∈ s.bursts, e'.seq? ≠ e.seq?) :
    ∃ s', s.handle c e = .ok s' ∧ Grows s s' ∧ (s.EventTableSafe c e → TableInv c s') ∧
      (TableExact c s' → s.EventTableSafe c e) := by
  cases e with
  | send_control_packet next seq =>
    rcases send_control_packet_table c s next seq with ⟨hno, hsame⟩ | ⟨⟨hdue, htakes⟩, k, hk⟩
    · refine ⟨_, rfl, hsame.grows, fun _ => h.same hsame, ?_⟩
      intro _ hdue htakes
      exact absurd ⟨hdue, htakes⟩ hno
    · refine ⟨_, rfl, hk.grows h.past, ?_, ?_⟩
      · intro hsafe
        exact h.reserved hk htakes (hsafe hdue htakes)
      · intro hexact _ _
        exact h.room_of_exact hk hexact
  | release_buffer seq next sendlength wave =>
    obtain ⟨⟨k, hk, rfl, rfl, rfl⟩, honce⟩ := hburst rfl
    rcases release_buffer_table c s k.SEQ k.dstIP sendlength k.WAVE with hdel | ⟨s', hs', hsame | ht⟩
    · obtain ⟨s', hs', hinv⟩ := h.delwave_byseq hk honce
      exact ⟨s', hdel.trans hs', delwave_byseq_grows hs', fun _ => hinv, fun _ => trivial⟩
    · exact ⟨s', hs', hsame.grows, fun _ => h.same hsame, fun _ => trivial⟩
    · have hof : Event.Of c k (.release_wave k.WAVE (c.RWA_get_outputport k.dstIP) k.SEQ) :=
        ⟨rfl, rfl, rfl⟩
      exact ⟨s', hs', ht.grows, fun _ => h.transmit hk hof honce ht, fun _ => trivial⟩
  | release_wave wave oport seq =>
    obtain ⟨⟨k, hk, rfl, rfl, rfl⟩, honce⟩ := hburst rfl
    obtain ⟨s', hs'⟩ := h.release_wave_ok hk (c.RWA_get_outputport k.dstIP)
    refine ⟨s', hs', release_wave_grows hs', ?_, h.first_of_exact hk hs'⟩
    intro hfirst
    exact h.release_wave hk honce hfirst hs'

/-- From a state of the invariant no assertion fails, and the invariant is kept exactly by the steps that
    lose no entry. -/
theorem step (h : TableInv c s) (a : Action) :
    ∃ s', s.step c a = .ok s' ∧ Grows s s' ∧ (s.TableSafe c a → TableInv c s') ∧
      (TableExact c s' → s.TableSafe c a) := by
  cases a with
  | send pkt next =>
    rcases send_table c s pkt next with ⟨hno, hsame⟩ | ⟨⟨hover, htakes⟩, k, hk⟩
    · refine ⟨_, rfl, hsame.grows, fun _ => h.same hsame, ?_⟩
      intro _ hover htakes
      exact absurd ⟨hover, htakes⟩ hno
    · refine ⟨_, rfl, hk.grows h.past, ?_, ?_⟩
      · intro hsafe
        exact h.reserved hk htakes (hsafe hover htakes)
      · intro hexact _ _
        exact h.room_of_exact hk hexact
  | pass now =>
    have hsame : ∀ p : Prop, [Decidable p] → SameBursts s (if p then { s with now := now } else s) := by
      intro p _
      split_ifs
      · exact ⟨rfl, rfl, rfl, rfl, rfl⟩
      · exact SameBursts.refl s
    exact ⟨_, rfl, (hsame _).grows, fun _ => h.same (hsame _), fun _ => trivial⟩
  | fire i =>
    cases he : s.events[i]? with
    | none =>
      refine ⟨s, by simp [Obwa.step, he], (SameBursts.refl s).grows, fun _ => h, ?_⟩
      intro _ e' he'
      rw [he] at he'
      cases he'
    | some e =>
      obtain ⟨time, e⟩ := e
      by_cases htime : time = s.now
      · obtain ⟨hu, hburst⟩ := h.fired he
        set u : Obwa := { s with events := s.events.eraseIdx i } with hudef
        have hstep : s.step c (.fire i) = u.handle c e := by
          simp [Obwa.step, he, htime, hudef]
        have hsafe : s.TableSafe c (.fire i) ↔ u.EventTableSafe c e := by
          constructor
          · intro hfires
            exact hfires _ he htime
          · intro hevent e' he' _
            rw [he] at he'
            obtain rfl := Option.some.inj he'
            exact hevent
        obtain ⟨s', hs', hgrows, hkeeps⟩ := hu.handle hburst
        rw [hstep, hsafe]
        exact ⟨s', hs', ⟨hgrows.controls, hgrows.released⟩, hkeeps⟩
      · refine ⟨s, by simp [Obwa.step, he, htime], (SameBursts.refl s).grows, fun _ => h, ?_⟩
        intro _ e' he' htime'
        rw [he] at he'
        obtain rfl := Option.some.inj he'
        exact absurd htime' htime

/-- Where the table is exact, it changes as the bursts do. -/
theorem follows (h : TableInv c s) (h' : TableInv c s') (hgrows : Grows s s') : TableFollows c s s' := by
  obtain ⟨new, hcontrols, hnew⟩ := hgrows.controls
  have hdrop : s'.controls.drop s.controls.length = new := by
    rw [hcontrols, List.drop_left]
  have hold : s.inFlight.filter (fun k => k.SEQ ∉ s'.released) =
      s.controls.filter fun k => k.SEQ ∉ s'.released := by
    unfold inFlight
    rw [List.filter_filter]
    refine List.filter_congr ?_
    intro k _
    by_cases hk : k.SEQ ∈ s'.released
    · simp [hk]
    · have hk' : k.SEQ ∉ s.released := fun hmem => hk (hgrows.released hmem)
      simp [hk, hk']
  have hflight : s'.inFlight = s.inFlight.filter (fun k => k.SEQ ∉ s'.released) ++ new := by
    rw [hold]
    unfold inFlight
    rw [hcontrols, List.filter_append]
    refine congrArg _ (List.filter_eq_self.2 ?_)
    intro k hk
    simpa using hnew k hk
  unfold TableFollows
  rw [h'.exact.table, hdrop, hflight, List.map_append, h.exact.table, List.filter_map]
  rfl

end TableInv

open Run

/-- **Wavelengths are used once.** The table has exactly the bursts in flight, and no two of them share a
    wavelength of a port, in every state of a run if and only if no step loses an entry; then each step
    removes the entries of its own bursts only. -/
theorem run_tableExact_iff (c : Config) (actions : List Action) :
    Always (step c) (TableExact c) init actions ∧
        Along (step c) (fun s a => ∀ s', s.step c a = .ok s' → TableFollows c s s') init actions ↔
      Along (step c) (TableSafe c) init actions := by
  have hkeep : ∀ s a s', TableInv c s → TableSafe c s a → s.step c a = .ok s' → TableInv c s' := by
    intro s a s' h hsafe hs'
    obtain ⟨t, ht, -, hkeeps, -⟩ := h.step a
    obtain rfl := Except.ok.inj (ht.symm.trans hs')
    exact hkeeps hsafe
  have hexact : Always (step c) (TableExact c) init actions ↔ Along (step c) (TableSafe c) init actions := by
    refine always_iff_along (D := fun _ _ => True) (fun s h => h.exact) ?_ ?_ ?_ init_tableInv
      (Along.true init actions)
    · intro s a s' h _ hs' hsafe
      exact hkeep s a s' h hsafe hs'
    · intro s a s' h _ hs' hexact
      obtain ⟨t, ht, -, -, hneeds⟩ := h.step a
      obtain rfl := Except.ok.inj (ht.symm.trans hs')
      exact hneeds hexact
    · intro s a e h _ he
      obtain ⟨t, ht, -⟩ := h.step a
      rw [ht] at he
      cases he
  constructor
  · intro h
    exact hexact.1 h.1
  · intro hsafe
    refine ⟨hexact.2 hsafe, ?_⟩
    refine Along.of_inv hkeep ?_ init_tableInv hsafe
    intro s a h hsafe s' hs'
    obtain ⟨t, ht, hgrows, hkeeps, -⟩ := h.step a
    obtain rfl := Except.ok.inj (ht.symm.trans hs')
    exact h.follows (hkeeps hsafe) hgrows

/-- A node with paths to three next hops, of which two use the same wavelength on different ports. -/
def threeHops : Config where
  nid := 1
  HeadList_head := [⟨1, 2, 1, 1, 1⟩, ⟨1, 3, 1, 2, 1⟩, ⟨1, 4, 2, 1, 1⟩]
  ipv4addr_to_nodeid := id
  Process_time := 100
  Timeout := 10
  Send_packet_length := 1000
  Drop_packet_length := 2000
  MAX_WAVE := 4
  choose_wave := 0
  Calculate_trans_time := fun _ _ => 1
  Calculate_Propdelay_time := fun _ _ => 1

/-- The third burst in flight overwrites the entry of the second one, whose wavelength is then given to a
    fourth burst to the same next hop. -/
theorem third_entry_overwrites :
    ¬ Always (step threeHops) (TableExact threeHops) init
      [.send ⟨1, 100⟩ 2, .send ⟨2, 100⟩ 3, .send ⟨3, 100⟩ 4, .pass 10, .fire 0, .fire 0, .fire 0,
        .send ⟨4, 100⟩ 3, .pass 20, .fire 3] := by
  intro h
  obtain ⟨t, hexact, hflight⟩ := h.exec_map (f := fun s => s.inFlight.map fun k => (k.WAVE, k.dstIP))
    (b := [(1, 2), (1, 3), (2, 4), (1, 3)]) (by decide +kernel)
  have hpairs : (t.inFlight.map fun k => (k.WAVE, k.dstIP)).Pairwise fun x y =>
      ¬ (x.1 = y.1 ∧ threeHops.RWA_get_outputport x.2 = threeHops.RWA_get_outputport y.2) :=
    List.pairwise_map.2 hexact.exclusive
  rw [hflight] at hpairs
  exact absurd hpairs (by decide)

end Obwa

end Opt
