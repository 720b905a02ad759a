import Nctuns.Dvb.Proofs.SectionProofs
import Nctuns.Dvb.TbtpTable

/-!
# Proofs about terminal burst time plans

A frame is read back from its bytes with its entries in the opposite order. So the table that is put
together from all sections has the frames of the original, each with its entries reversed.
-/

namespace Dvb

open LittleEndian Outcome

variable {t : Tbtp} {f : TbtpFrameInfoEntry} {e : TbtpTimeslotInfoEntry}
  {uninit : List UInt8 → UInt8}

/-! ### Tables that are built -/

theorem toNat_ofInt_toInt8 (c : Int8) : (UInt16.ofInt c.toInt).toNat % 256 = c.toUInt8.toNat := by
  have hc : c.toInt = if 2 * c.toUInt8.toNat < 256 then (c.toUInt8.toNat : Int)
      else c.toUInt8.toNat - 256 := BitVec.toInt_eq_toNat_cond c.toBitVec
  have hlt := c.toUInt8.toNat_lt
  rw [UInt16.ofInt, UInt16.toNat_ofNat', hc]
  split <;> omega

theorem counted_addTo (h : f.frame_info.btp_loop_count.toNat % 256 = f.timeslots.length % 256) :
    (Tbtp.addTo e f).frame_info.btp_loop_count.toNat % 256 =
      (Tbtp.addTo e f).timeslots.length % 256 := by
  have hchar : (Tbtp.loopChar f + 1).toUInt8.toNat =
      (f.frame_info.btp_loop_count.toNat % 256 + 1) % 256 := by
    show (f.frame_info.btp_loop_count.toUInt8 + 1).toNat = _
    rw [UInt8.toNat_add, UInt16.toNat_toUInt8]
    rfl
  show (UInt16.ofInt (Tbtp.loopChar f + 1).toInt).toNat % 256 = (f.timeslots.length + 1) % 256
  rw [toNat_ofInt_toInt8, hchar, h]
  omega

theorem counted_removeFrom {logon_id : UInt16}
    (h : f.frame_info.btp_loop_count.toNat % 256 = f.timeslots.length % 256) :
    (Tbtp.removeFrom logon_id f).frame_info.btp_loop_count.toNat % 256 =
      (Tbtp.removeFrom logon_id f).timeslots.length % 256 := by
  unfold Tbtp.removeFrom
  simp only
  split
  · rename_i hany
    have hchar : (Tbtp.loopChar f - 1).toUInt8.toNat =
        (f.frame_info.btp_loop_count.toNat % 256 + 255) % 256 := by
      show (f.frame_info.btp_loop_count.toUInt8 - 1).toNat = _
      rw [UInt8.toNat_sub, UInt16.toNat_toUInt8]
      show (256 - 1 + _) % 256 = _
      omega
    obtain ⟨e, he, hof⟩ := List.any_eq_true.1 hany
    have hpos := List.length_pos_of_mem he
    show (UInt16.ofInt (Tbtp.loopChar f - 1).toInt).toNat % 256 = (f.timeslots.eraseP _).length % 256
    rw [toNat_ofInt_toInt8, hchar, h, List.length_eraseP_of_mem he hof]
    omega
  · exact h

/-- The operations on a table keep its loop counts. -/
theorem Tbtp.Counted.modify (h : t.Counted) {p : TbtpFrameInfoEntry → Bool}
    {g : TbtpFrameInfoEntry → TbtpFrameInfoEntry}
    (hg : ∀ f, f.frame_info.btp_loop_count.toNat % 256 = f.timeslots.length % 256 →
      (g f).frame_info.btp_loop_count.toNat % 256 = (g f).timeslots.length % 256) :
    Tbtp.Counted { t with entries := modifyFirst p g t.entries } := by
  intro f' hf'
  obtain ⟨f, hf, rfl | rfl⟩ := mem_modifyFirst hf'
  · exact h _ hf
  · exact hg f (h f hf)

theorem Tbtp.Counted.new (network_id : UInt16) (version_number current_next_indicator : UInt8)
    (superframe_count : UInt16) (group_id : UInt8) :
    (Tbtp.new network_id version_number current_next_indicator superframe_count group_id).Counted := by
  intro f hf
  cases hf

theorem Tbtp.Counted.add_frame_info (h : t.Counted) (frame_info : TbtpFrameInfo) :
    (t.add_frame_info frame_info e).Counted := by
  unfold Tbtp.add_frame_info
  split
  · exact h
  · exact List.forall_mem_cons.2 ⟨rfl, h⟩

theorem Tbtp.Counted.add_timeslot_info (h : t.Counted) (frame_number : UInt8) :
    (t.add_timeslot_info frame_number e).Counted :=
  h.modify fun _ => counted_addTo

theorem Tbtp.Counted.remove_timeslot_info (h : t.Counted) (frame_number : UInt8)
    (logon_id : UInt16) : (t.remove_timeslot_info frame_number logon_id).Counted :=
  h.modify fun _ => counted_removeFrom

theorem Tbtp.Counted.remove_frame_info (h : t.Counted) (frame_number : UInt8) :
    (t.remove_frame_info frame_number).Counted := fun f hf => h f (List.mem_of_mem_eraseP hf)

/-! ### Bytes -/

theorem ofBits_bits (s : TbtpTimeslotInfo) : TbtpTimeslotInfo.ofBits s.logon_id.toNat s.bits = s := by
  obtain ⟨logon_id, multiple, kind, empty, start_slot⟩ := s
  have hkind := kind.isLt
  have hslot := start_slot.isLt
  have hm := multiple.toNat_le
  have hv := empty.toNat_le
  have h1 : TbtpTimeslotInfo.bits ⟨logon_id, multiple, kind, empty, start_slot⟩ % 2 =
      multiple.toNat := by
    simp only [TbtpTimeslotInfo.bits]
    omega
  have h2 : TbtpTimeslotInfo.bits ⟨logon_id, multiple, kind, empty, start_slot⟩ / 2 % 4 =
      kind.toNat := by
    simp only [TbtpTimeslotInfo.bits]
    omega
  have h3 : TbtpTimeslotInfo.bits ⟨logon_id, multiple, kind, empty, start_slot⟩ / 8 % 2 =
      empty.toNat := by
    simp only [TbtpTimeslotInfo.bits]
    omega
  have h4 : TbtpTimeslotInfo.bits ⟨logon_id, multiple, kind, empty, start_slot⟩ / 16 =
      start_slot.toNat := by
    simp only [TbtpTimeslotInfo.bits]
    omega
  simp only [TbtpTimeslotInfo.ofBits, h1, h3, h4, UInt16.ofNat_toNat, BitVec.ofNat_toNat,
    BitVec.setWidth_eq]
  congr 1
  · cases multiple <;> rfl
  · refine BitVec.eq_of_toNat_eq ?_
    rw [BitVec.toNat_ofNat]
    exact h2
  · cases empty <;> rfl

theorem bits_lt (s : TbtpTimeslotInfo) : s.bits < 256 ^ 2 := by
  have hkind := s.assignment_type.isLt
  have hslot := s.start_slot.isLt
  have hm := s.multiple_channels_flag.toNat_le
  have hv := s.vbdc_queue_empty_flag.toNat_le
  unfold TbtpTimeslotInfo.bits
  omega

/-- An entry is read back, but for a `channel_id` that has not been written. -/
theorem get_put_timeslot (e : TbtpTimeslotInfoEntry) (rest : List UInt8) :
    ∃ e', TbtpTimeslotInfoEntry.get uninit (e.put ++ rest) = .ok (e', rest) ∧
      e'.grant = e.grant := by
  have h1 : e.timeslot_info.logon_id.toNat < 256 ^ 2 := e.timeslot_info.logon_id.toNat_lt
  have h2 : e.channel_id.toNat < 256 ^ 1 := e.channel_id.toNat_lt
  have h3 : e.assignment_count.toNat < 256 ^ 2 := e.assignment_count.toNat_lt
  unfold TbtpTimeslotInfoEntry.get TbtpTimeslotInfoEntry.put
  simp only [List.append_assoc, word_bytes h1, word_bytes (bits_lt _), bind_ok, ofBits_bits]
  cases hm : e.timeslot_info.multiple_channels_flag with
  | true =>
    simp only [if_true, word_bytes h2, word_bytes h3, bind_ok]
    exact ⟨_, rfl, by simp [TbtpTimeslotInfoEntry.grant]⟩
  | false =>
    simp only [Bool.false_eq_true, if_false, List.nil_append, word_bytes h3, bind_ok]
    exact ⟨_, rfl, by simp [TbtpTimeslotInfoEntry.grant, hm]⟩

@[simp] theorem length_put_timeslot (e : TbtpTimeslotInfoEntry) :
    e.put.length = e.timeslot_info_len := by
  unfold TbtpTimeslotInfoEntry.put TbtpTimeslotInfoEntry.timeslot_info_len
  cases e.timeslot_info.multiple_channels_flag <;> simp

/-- The entries are read back in front of each other. -/
theorem getTimeslots_put (es q : List TbtpTimeslotInfoEntry) (rest : List UInt8) :
    ∃ es', TbtpFrameInfoEntry.getTimeslots uninit es.length q (es.flatMap (·.put) ++ rest) =
        .ok (es' ++ q, rest) ∧
      es'.map (·.grant) = (es.map (·.grant)).reverse := by
  induction es generalizing q with
  | nil => exact ⟨[], rfl, rfl⟩
  | cons e es ih =>
    obtain ⟨e', he', hgrant⟩ := @get_put_timeslot uninit e (es.flatMap (·.put) ++ rest)
    obtain ⟨es', hes', hgrants⟩ := ih (e' :: q)
    refine ⟨es' ++ [e'], ?_, by simp [hgrants, hgrant]⟩
    rw [List.flatMap_cons, List.append_assoc, List.length_cons, TbtpFrameInfoEntry.getTimeslots,
      he', bind_ok]
    simp only
    rw [hes', List.append_assoc]
    rfl

/-- The frame has come with its entries, the last one first. -/
def Reversed (f f' : TbtpFrameInfoEntry) : Prop :=
  f'.frame_info = f.frame_info ∧ f'.timeslots.map (·.grant) = (f.timeslots.map (·.grant)).reverse

theorem sum_len_le (es : List TbtpTimeslotInfoEntry) :
    (es.map (·.timeslot_info_len)).sum ≤ 7 * es.length := by
  induction es with
  | nil => exact Nat.le_refl 0
  | cons e es ih =>
    have hm := e.timeslot_info.multiple_channels_flag.toNat_le
    rw [List.map_cons, List.sum_cons, List.length_cons, TbtpTimeslotInfoEntry.timeslot_info_len]
    omega

/-- A frame with a right loop count between 1 and 255 is read back with its entries reversed. -/
theorem carries_tbtp (hcount : f.frame_info.btp_loop_count.toNat % 256 = f.timeslots.length % 256)
    (hne : f.timeslots ≠ []) (hlen : f.timeslots.length ≤ 255) :
    (tbtpFormat uninit).Carries Reversed f := by
  have hpos := List.length_pos_iff.2 hne
  have hsum := sum_len_le f.timeslots
  have hlt := f.frame_info.btp_loop_count.toNat_lt
  have hbytes : (f.timeslots.flatMap (·.put)).length =
      (f.timeslots.map (·.timeslot_info_len)).sum := by
    simp [List.length_flatMap]
  have hput_len : f.put.length = 3 + (f.timeslots.map (·.timeslot_info_len)).sum := by
    simp only [TbtpFrameInfoEntry.put, List.length_append, length_bytes, hbytes]
  have hnz : f.frame_info.btp_loop_count ≠ 0 := by
    intro h0
    rw [h0] at hcount
    simp at hcount
    omega
  have hpred : (f.frame_info.btp_loop_count - 1).toNat = f.frame_info.btp_loop_count.toNat - 1 := by
    refine UInt16.toNat_sub_of_le _ _ (UInt16.le_iff_toNat_le.2 ?_)
    show 1 ≤ f.frame_info.btp_loop_count.toNat
    omega
  refine ⟨?_, ?_, ?_, fun rest => ?_⟩
  · show (UInt32.ofNat (3 + (f.timeslots.map (·.timeslot_info_len)).sum)).toNat = f.put.length
    rw [hput_len]
    exact UInt32.toNat_ofNat_of_lt' (by show _ < 2 ^ 32; omega)
  · show 0 < f.put.length
    omega
  · show 12 + f.put.length + 1 < 4096
    omega
  · show ∃ f', TbtpFrameInfoEntry.get uninit (f.put ++ rest) = _ ∧ _
    have h1 : f.frame_info.frame_number.toNat < 256 ^ 1 := f.frame_info.frame_number.toNat_lt
    have h2 : (f.frame_info.btp_loop_count - 1).toNat < 256 ^ 2 :=
      (f.frame_info.btp_loop_count - 1).toNat_lt
    have hread : (UInt8.ofNat (f.frame_info.btp_loop_count - 1).toNat).toNat + 1 =
        f.timeslots.length := by
      rw [UInt8.toNat_ofNat', hpred]
      omega
    obtain ⟨es', hes', hgrants⟩ := @getTimeslots_put uninit f.timeslots [] rest
    unfold TbtpFrameInfoEntry.get TbtpFrameInfoEntry.put
    simp only [if_pos hnz, List.append_assoc, word_bytes h1, word_bytes h2, bind_ok, hread, hes',
      UInt8.ofNat_toNat, UInt16.ofNat_toNat, List.append_nil]
    refine ⟨_, rfl, ?_, hgrants⟩
    simp

/-! ### Complete tables -/

theorem framed_tbtp : (tbtpFormat uninit).Framed := ⟨rfl, show 12 ≤ 16 by decide⟩

/-- What the table has that was put together from the entries `es`. -/
theorem plan_reversed {r : Tbtp} {es : List TbtpFrameInfoEntry}
    (h : List.Forall₂ Reversed es r.entries.reverse) :
    r.plan.Perm (es.map fun f => (f.frame_info, (f.timeslots.map (·.grant)).reverse)) := by
  have hmap : r.entries.reverse.map (fun f => (f.frame_info, f.timeslots.map (·.grant))) =
      es.map fun f => (f.frame_info, (f.timeslots.map (·.grant)).reverse) := by
    generalize r.entries.reverse = es' at h
    induction h with
    | nil => rfl
    | cons he _ ih => rw [List.map_cons, List.map_cons, ih, he.1, he.2]
  rw [← hmap, List.map_reverse]
  exact (List.reverse_perm _).symm

/-- The sections of a plan with up to 255 entries in each frame, received in any order, give back the
    frames, each with its entries in the opposite order. -/
theorem tbtp_rebuilt (h : t.Counted) (hne : t.entries ≠ [])
    (hlen : ∀ f ∈ t.entries, 1 ≤ f.timeslots.length ∧ f.timeslots.length ≤ 255)
    (hcount : ((tbtpFormat uninit).section_lengths 12 t.entries).length ≤ 256) :
    ∃ secs, (tbtpFormat uninit).sections t = .ok secs ∧
      ∀ as : List (Fin secs.length), as.Perm (List.finRange secs.length) →
        ∃ r, (tbtpFormat uninit).reassemble (as.map secs.get) = .ok (some r) ∧
          (Tbtp.plan r).Perm (t.plan.map (Prod.map id List.reverse)) := by
  have hcarries : ∀ f ∈ t.entries, (tbtpFormat uninit).Carries Reversed f := fun f hf =>
    carries_tbtp (h f hf) (List.length_pos_iff.1 (hlen f hf).1) (hlen f hf).2
  obtain ⟨gs₀, -, -, hsizes, -, hsecs⟩ := sections_spec framed_tbtp hcarries hne
  rw [show (tbtpFormat uninit).DRAFT_SIZE = 12 from rfl] at hsizes
  rw [if_neg (by rw [← hsizes]; show ¬ 1000 < _; omega)] at hsecs
  refine ⟨_, hsecs, fun as has => ?_⟩
  obtain ⟨gs, hcut⟩ := sections_cut framed_tbtp hcarries hsecs
  obtain ⟨r, hr, hcase⟩ := reassemble_spec framed_tbtp hcut hcarries as
  have hn := hcut.length
  have hval : (as.map (·.val)).Perm (List.range gs.length) := by
    rw [← hn, ← List.map_coe_finRange_eq_range]
    exact has.map _
  have hpos := List.length_pos_iff.2 hcut.ne
  have hle : gs.length ≤ 256 := by
    rw [← hn, length_sectionsOf, ← hsizes]
    exact hcount
  rcases hcase with ⟨pre, t', rfl, hpre, hall⟩ | ⟨-, hnot⟩
  · obtain rfl := completed_all hle hval hpre
    refine ⟨t', hr, (plan_reversed hall).trans ?_⟩
    have hperm : (gathered gs (as.map (·.val))).Perm t.entries := by
      rw [← hcut.flatten, ← gathered_range gs]
      exact hval.flatMap_right _
    refine (hperm.map _).trans (List.Perm.of_eq ?_)
    rw [Tbtp.plan, List.map_map]
    rfl
  · exact absurd (covers_all hpos hval) hnot

/-- A plan of frames with `n` timeslots each. -/
def planOf (n : Nat) (frame_numbers : List UInt8) : Tbtp :=
  { Tbtp.new 1 0 1 0 0 with
    entries := frame_numbers.map fun frame_number =>
      { frame_info := ⟨frame_number, UInt16.ofNat n⟩
        timeslots := (List.range n).map fun i => ⟨⟨UInt16.ofNat i, false, 0, false, 0⟩, 0, 1⟩ } }

/-- Two frames in two sections. -/
theorem tbtp_rebuilt_two :
    ((tbtpFormat fun _ => 0).section_lengths 12 (planOf 100 [1, 2]).entries).length = 2 ∧
      ∃ secs, (tbtpFormat fun _ => 0).sections (planOf 100 [1, 2]) = .ok secs ∧
        ∀ as : List (Fin secs.length), as.Perm (List.finRange secs.length) →
          ∃ r, (tbtpFormat fun _ => 0).reassemble (as.map secs.get) = .ok (some r) ∧
            (Tbtp.plan r).Perm ((planOf 100 [1, 2]).plan.map (Prod.map id List.reverse)) := by
  have hcounted : (planOf 100 [1, 2]).Counted := by
    unfold Tbtp.Counted
    decide
  exact ⟨by decide +kernel, tbtp_rebuilt hcounted (by decide) (by decide) (by decide +kernel)⟩

/-- A plan of one frame that two terminals have timeslots in. -/
def twoTerminals : Tbtp :=
  ((Tbtp.new 1 0 1 0 0).add_frame_info ⟨3, 0⟩ ⟨⟨7, true, 0, false, 0⟩, 2, 1⟩).add_timeslot_info 3
    ⟨⟨8, false, 0, false, 1⟩, 0, 4⟩

/-- The entries of the frame come back in another order. -/
theorem two_entries_swapped :
    ∃ (secs : List (TableSection TbtpGroup)) (r : Tbtp),
      (tbtpFormat fun _ => 0).sections twoTerminals = .ok secs ∧
        (tbtpFormat fun _ => 0).reassemble secs = .ok (some r) ∧
        ¬ (Tbtp.plan r).Perm twoTerminals.plan := by
  refine ⟨[(tbtpFormat fun _ => 0).sectionOf twoTerminals 0 0 twoTerminals.entries],
    { twoTerminals with
      entries := twoTerminals.entries.map fun f => { f with timeslots := f.timeslots.reverse } },
    ?_, ?_, ?_⟩
  · decide +kernel
  · decide +kernel
  · decide +kernel

end Dvb
