import Nctuns.Dvb.Proofs.TimeslotSchedulerProofs

/-!
# Proofs about the timeslot plan

The counts of the passes are laid out RCST by RCST: each superframe has a first unused slot, and the
chunks of an RCST tile the slots from there on.
-/

namespace Dvb

open Outcome SlotAssignmentRecord TimeslotScheduler

variable {V : Prop} {ncc : NccSlots} {rcst_infos : RcstInfoList}
  {record counts : SlotAssignmentRecord} {total : SlotType → UInt16} {r : RcstInfo}
  {rcst_id : RcstId} {type : SlotType} {a b base : Nat} {cs : List SlotAssignment}

/-! ### Chunks of one RCST -/

/-- The slot behind a chunk. -/
def SlotAssignment.stop (c : SlotAssignment) : Nat :=
  c.start_slot.toNat + c.assignment_count.toNat + 1

theorem SlotAssignment.card_slots (c : SlotAssignment) :
    c.slots.card = c.assignment_count.toNat + 1 := by
  rw [slots, Nat.card_Ico]
  omega

theorem SlotAssignment.slots_subset {c : SlotAssignment} (ha : a ≤ c.start_slot.toNat)
    (hb : c.stop ≤ b) : c.slots ⊆ Finset.Ico a b :=
  Finset.Ico_subset_Ico ha hb

theorem SlotAssignment.disjoint_slots {c d : SlotAssignment} (h : c.stop ≤ d.start_slot.toNat) :
    Disjoint c.slots d.slots := by
  refine Finset.disjoint_left.2 fun k hc hd => ?_
  have hc := (Finset.mem_Ico.1 hc).2
  have hd := (Finset.mem_Ico.1 hd).1
  exact absurd (Nat.lt_of_lt_of_le hc h) (Nat.not_lt.2 hd)

/-- Chunks of an RCST one behind the other, from slot `a` to slot `b`. -/
def Tiles (rcst_id : RcstId) : List SlotAssignment → Nat → Nat → Prop
  | [], a, b => a = b
  | c :: cs, a, b => c.rcst_id = rcst_id ∧ c.start_slot.toNat = a ∧ Tiles rcst_id cs c.stop b

namespace Tiles

theorem le (h : Tiles rcst_id cs a b) : a ≤ b := by
  induction cs generalizing a with
  | nil => exact Nat.le_of_eq h
  | cons c cs ih =>
    obtain ⟨-, rfl, h⟩ := h
    exact Nat.le_trans (Nat.le_succ_of_le (Nat.le_add_right _ _)) (ih h)

theorem of_mem (h : Tiles rcst_id cs a b) {c : SlotAssignment} (hc : c ∈ cs) :
    c.rcst_id = rcst_id ∧ a ≤ c.start_slot.toNat ∧ c.stop ≤ b := by
  induction cs generalizing a with
  | nil => exact absurd hc List.not_mem_nil
  | cons d cs ih =>
    obtain ⟨hid, rfl, h⟩ := h
    rcases List.mem_cons.1 hc with rfl | hc
    · exact ⟨hid, Nat.le_refl _, h.le⟩
    · obtain ⟨hid', hle, hstop⟩ := ih h hc
      exact ⟨hid', Nat.le_trans (Nat.le_succ_of_le (Nat.le_add_right _ _)) hle, hstop⟩

theorem ordered (h : Tiles rcst_id cs a b) :
    cs.Pairwise fun c d => c.stop ≤ d.start_slot.toNat := by
  induction cs generalizing a with
  | nil => exact List.Pairwise.nil
  | cons c cs ih =>
    obtain ⟨-, -, h⟩ := h
    exact List.Pairwise.cons (fun d hd => (h.of_mem hd).2.1) (ih h)

/-- A tiling has as many slots as the interval. -/
theorem card (h : Tiles rcst_id cs a b) :
    (cs.map fun c => if c.rcst_id = rcst_id then c.slots.card else 0).sum = b - a := by
  induction cs generalizing a with
  | nil =>
    obtain rfl : a = b := h
    exact (Nat.sub_self a).symm
  | cons c cs ih =>
    obtain ⟨hid, rfl, h⟩ := h
    have hle := h.le
    rw [List.map_cons, List.sum_cons, ih h, if_pos hid, c.card_slots]
    unfold SlotAssignment.stop at hle ⊢
    omega

end Tiles

theorem assign_slot_tiles {fuel : Nat} {start_slot count : UInt16} (hf : count.toNat ≤ fuel)
    (h : record.assign_slot rcst_id fuel start_slot count = some cs) :
    Tiles rcst_id cs start_slot.toNat (start_slot.toNat + count.toNat) ∧
      (0 < count.toNat → start_slot.toNat + count.toNat ≤ record.num_total_slot.toNat) := by
  induction fuel generalizing start_slot count cs with
  | zero =>
    obtain rfl : [] = cs := Option.some.inj h
    have h0 : count.toNat = 0 := Nat.le_zero.1 hf
    exact ⟨by rw [h0]; rfl, fun hpos => absurd h0 (Nat.ne_of_gt hpos)⟩
  | succ fuel ih =>
    unfold SlotAssignmentRecord.assign_slot at h
    by_cases hpos : count > 0
    · rw [if_pos hpos] at h
      dsimp only at h
      generalize hg : (if count > 256 then 256 else count : UInt16) = give at h
      have hpos' := UInt16.lt_iff_toNat_lt.1 hpos
      have hgive : 0 < give.toNat ∧ give.toNat ≤ 256 ∧ give ≤ count := by
        rw [← hg]
        split
        next hbig => exact ⟨by decide, by decide, UInt16.le_of_lt hbig⟩
        next hsmall =>
          exact ⟨hpos', UInt16.le_iff_toNat_le.1 (UInt16.not_lt.1 hsmall), UInt16.le_refl _⟩
      obtain ⟨hg0, hg256, hgc⟩ := hgive
      have hgc' := UInt16.le_iff_toNat_le.1 hgc
      by_cases hfit : start_slot.toNat + give.toNat ≤ record.num_total_slot.toNat
      · rw [if_pos hfit] at h
        have hlt := record.num_total_slot.toNat_lt
        have hstart : (start_slot + give).toNat = start_slot.toNat + give.toNat := by
          rw [UInt16.toNat_add]
          exact Nat.mod_eq_of_lt (by omega)
        have hcount : (count - give).toNat = count.toNat - give.toNat :=
          UInt16.toNat_sub_of_le _ _ hgc
        have hge : (1 : UInt16) ≤ give := UInt16.le_iff_toNat_le.2 hg0
        have hone : (give - 1).toUInt8.toNat = give.toNat - 1 := by
          rw [UInt16.toNat_toUInt8, UInt16.toNat_sub_of_le _ _ hge]
          exact Nat.mod_eq_of_lt (by show give.toNat - 1 < 2 ^ 8; omega)
        cases hrec : record.assign_slot rcst_id fuel (start_slot + give) (count - give) with
        | none => rw [hrec] at h; exact absurd h (by simp)
        | some chunks =>
          rw [hrec] at h
          obtain rfl := Option.some.inj h
          obtain ⟨htiles, hbound⟩ := ih (by omega) hrec
          rw [hstart, hcount] at htiles hbound
          refine ⟨⟨rfl, rfl, ?_⟩, fun _ => ?_⟩
          · rw [show start_slot.toNat + count.toNat =
              start_slot.toNat + give.toNat + (count.toNat - give.toNat) by omega]
            convert htiles using 1
            show start_slot.toNat + (give - 1).toUInt8.toNat + 1 = _
            omega
          · rcases Nat.eq_zero_or_pos (count.toNat - give.toNat) with h0 | hmore
            · omega
            · have := hbound hmore
              omega
      · rw [if_neg hfit] at h
        exact absurd h (by simp)
    · rw [if_neg hpos] at h
      obtain rfl : [] = cs := Option.some.inj h
      have h0 : count.toNat = 0 := by
        rw [gt_iff_lt, UInt16.lt_iff_toNat_lt] at hpos
        exact Nat.eq_zero_of_not_pos hpos
      exact ⟨by rw [h0]; rfl, fun hpos => absurd h0 (Nat.ne_of_gt hpos)⟩

theorem assign_slot_fits (fuel : Nat) {start_slot count : UInt16}
    (h : start_slot.toNat + count.toNat ≤ record.num_total_slot.toNat) :
    ∃ cs, record.assign_slot rcst_id fuel start_slot count = some cs := by
  induction fuel generalizing start_slot count with
  | zero => exact ⟨[], rfl⟩
  | succ fuel ih =>
    unfold SlotAssignmentRecord.assign_slot
    split
    · dsimp only
      generalize hg : (if count > 256 then 256 else count : UInt16) = give
      have hgc : give ≤ count := by
        rw [← hg]
        split
        · exact UInt16.le_of_lt ‹_›
        · exact UInt16.le_refl _
      have hgc' := UInt16.le_iff_toNat_le.1 hgc
      have hlt := record.num_total_slot.toNat_lt
      have hstart : (start_slot + give).toNat = start_slot.toNat + give.toNat := by
        rw [UInt16.toNat_add]
        exact Nat.mod_eq_of_lt (by omega)
      rw [if_pos (by omega)]
      have hrest : (start_slot + give).toNat + (count - give).toNat ≤ record.num_total_slot.toNat := by
        rw [hstart, UInt16.toNat_sub_of_le _ _ hgc]
        omega
      obtain ⟨cs, hcs⟩ := ih hrest
      rw [hcs]
      exact ⟨_, rfl⟩
    · exact ⟨[], rfl⟩

/-! ### The layout -/

/-- The slots counted for those RCSTs of a list that send in a superframe. -/
def countsOf (counts : SlotAssignmentRecord) (type : SlotType) (superframe_id : UInt8)
    (l : List RcstInfo) : Nat :=
  ((l.filter fun r => r.superframe_id_for_transmission = superframe_id).map
    fun r => (counts.num_slot_of_rcst type r.rcst_id).toNat).sum

theorem countsOf_append (superframe_id : UInt8) (l m : List RcstInfo) :
    countsOf counts type superframe_id (l ++ m) =
      countsOf counts type superframe_id l + countsOf counts type superframe_id m := by
  rw [countsOf, List.filter_append, List.map_append, List.sum_append]
  rfl

theorem countsOf_singleton (superframe_id : UInt8) (r : RcstInfo) :
    countsOf counts type superframe_id [r] =
      if r.superframe_id_for_transmission = superframe_id then
        (counts.num_slot_of_rcst type r.rcst_id).toNat else 0 := by
  unfold countsOf
  split
  next h => rw [List.filter_cons_of_pos (by simpa using h)]; simp
  next h => rw [List.filter_cons_of_neg (by simpa using h)]; rfl

/-- The slots of the chunks that an RCST has in a list. -/
def cardOf (rcst_id : RcstId) (l : List SlotAssignment) : Nat :=
  (l.map fun c => if c.rcst_id = rcst_id then c.slots.card else 0).sum

theorem cardOf_append (rcst_id : RcstId) (l m : List SlotAssignment) :
    cardOf rcst_id (l ++ m) = cardOf rcst_id l + cardOf rcst_id m := by
  rw [cardOf, List.map_append, List.sum_append]
  rfl

theorem cardOf_eq_zero {l : List SlotAssignment} (h : ∀ c ∈ l, c.rcst_id ≠ rcst_id) :
    cardOf rcst_id l = 0 := by
  refine List.sum_eq_zero fun x hx => ?_
  obtain ⟨c, hc, rfl⟩ := List.mem_map.1 hx
  exact if_neg (h c hc)

/-- One chunk is before another where their RCSTs send in the same superframe. -/
def Before (rcst_infos : RcstInfoList) (c d : SlotAssignment) : Prop :=
  ∀ r ∈ rcst_infos.info_list, ∀ r' ∈ rcst_infos.info_list, c.rcst_id = r.rcst_id →
    d.rcst_id = r'.rcst_id →
    r.superframe_id_for_transmission = r'.superframe_id_for_transmission →
    c.stop ≤ d.start_slot.toNat

/-- The layout of one type from slot `base` on, with the RCSTs of `front` done. -/
structure LaidOut (rcst_infos : RcstInfoList) (counts : SlotAssignmentRecord) (type : SlotType)
    (base : Nat) (front : List RcstInfo) (record : SlotAssignmentRecord) : Prop where
  same : record = { counts with
    first_unused_slot := record.first_unused_slot, slot_chunk_list := record.slot_chunk_list }
  others : ∀ t ≠ type, record.slot_chunk_list t = counts.slot_chunk_list t
  unused : ∀ superframe_id ≤ MAX_SUPERFRAME_ID, (record.first_unused_slot superframe_id).toNat =
    base + countsOf counts type superframe_id front
  within : ∀ c ∈ record.slot_chunk_list type, ∃ r ∈ front, c.rcst_id = r.rcst_id ∧
    r.superframe_id_for_transmission ≤ MAX_SUPERFRAME_ID ∧ base ≤ c.start_slot.toNat ∧
    c.stop ≤ base + countsOf counts type r.superframe_id_for_transmission front
  ordered : (record.slot_chunk_list type).Pairwise (Before rcst_infos)
  given : ∀ r ∈ front,
    cardOf r.rcst_id (record.slot_chunk_list type) = (counts.num_slot_of_rcst type r.rcst_id).toNat

/-- The record with the chunks of one more RCST. -/
def withChunks (record : SlotAssignmentRecord) (type : SlotType) (superframe_id : UInt8) (num_slot : UInt16)
    (cs : List SlotAssignment) : SlotAssignmentRecord := { record with
  first_unused_slot := fun s =>
    if s = superframe_id then record.first_unused_slot s + num_slot else record.first_unused_slot s
  slot_chunk_list := fun t =>
    if t = type then record.slot_chunk_list t ++ cs else record.slot_chunk_list t }

/-- The slots of one more RCST are those of its superframe. -/
theorem countsOf_concat (s : UInt8) (front : List RcstInfo) (r : RcstInfo) :
    countsOf counts type s (front ++ [r]) = countsOf counts type s front +
      if r.superframe_id_for_transmission = s then (counts.num_slot_of_rcst type r.rcst_id).toNat else 0 := by
  rw [countsOf_append, countsOf_singleton]

/-- Nothing is laid out yet. -/
theorem LaidOut.nil
    (hunused : ∀ s ≤ MAX_SUPERFRAME_ID, (counts.first_unused_slot s).toNat = base)
    (hnil : counts.slot_chunk_list type = []) : LaidOut rcst_infos counts type base [] counts := by
  refine ⟨rfl, fun _ _ => rfl, hunused, fun c hc => ?_, ?_, fun r hr => ?_⟩
  · exact absurd (hnil ▸ hc) List.not_mem_nil
  · rw [hnil]
    exact List.Pairwise.nil
  · exact absurd hr List.not_mem_nil

/-- Another RCST has no slots yet. -/
theorem LaidOut.card_eq_zero {front : List RcstInfo} (h : LaidOut rcst_infos counts type base front record)
    (hne : ∀ x ∈ front, x.rcst_id ≠ r.rcst_id) : cardOf r.rcst_id (record.slot_chunk_list type) = 0 := by
  refine cardOf_eq_zero fun c hc => ?_
  obtain ⟨x, hx, hid, -⟩ := h.within c hc
  rw [hid]
  exact hne x hx

/-- An RCST without slots is passed over. -/
theorem LaidOut.skip {front : List RcstInfo} (h : LaidOut rcst_infos counts type base front record)
    (hne : ∀ x ∈ front, x.rcst_id ≠ r.rcst_id)
    (h0 : (counts.num_slot_of_rcst type r.rcst_id).toNat = 0) :
    LaidOut rcst_infos counts type base (front ++ [r]) record := by
  have hsame : ∀ s, countsOf counts type s (front ++ [r]) = countsOf counts type s front := by
    intro s
    rw [countsOf_concat, h0, ite_self, Nat.add_zero]
  refine ⟨h.same, h.others, fun s hs => by rw [hsame]; exact h.unused s hs, ?_, h.ordered, fun x hx => ?_⟩
  · intro c hc
    obtain ⟨x, hx, hid, hxs, hlo, hhi⟩ := h.within c hc
    exact ⟨x, List.mem_append_left _ hx, hid, hxs, hlo, by rw [hsame]; exact hhi⟩
  · rcases List.mem_append.1 hx with hx | hx
    · exact h.given x hx
    · rw [List.mem_singleton.1 hx, h.card_eq_zero hne, h0]

/-- The chunks of an RCST come behind those of the RCSTs before it. -/
theorem LaidOut.assign {front : List RcstInfo} (h : LaidOut rcst_infos counts type base front record)
    (hfront : ∀ x ∈ front, x ∈ rcst_infos.info_list) (hr : r ∈ rcst_infos.info_list)
    (hne : ∀ x ∈ front, x.rcst_id ≠ r.rcst_id) (hsid : r.superframe_id_for_transmission ≤ MAX_SUPERFRAME_ID)
    {num_slot : UInt16} (hnum : counts.num_slot_of_rcst type r.rcst_id = num_slot)
    (htiles : Tiles r.rcst_id cs (base + countsOf counts type r.superframe_id_for_transmission front)
      (base + countsOf counts type r.superframe_id_for_transmission front + num_slot.toNat))
    (hbound : base + countsOf counts type r.superframe_id_for_transmission front + num_slot.toNat < 2 ^ 16) :
    LaidOut rcst_infos counts type base (front ++ [r])
      (withChunks record type r.superframe_id_for_transmission num_slot cs) := by
  have hself : countsOf counts type r.superframe_id_for_transmission (front ++ [r]) =
      countsOf counts type r.superframe_id_for_transmission front + num_slot.toNat := by
    rw [countsOf_concat, if_pos rfl, hnum]
  have hmono : ∀ s, countsOf counts type s front ≤ countsOf counts type s (front ++ [r]) := by
    intro s
    rw [countsOf_concat]
    exact Nat.le_add_right _ _
  have hlist : (withChunks record type r.superframe_id_for_transmission num_slot cs).slot_chunk_list type =
      record.slot_chunk_list type ++ cs := if_pos rfl
  refine ⟨?_, fun t ht => ?_, fun s hs => ?_, ?_, ?_, ?_⟩
  · rw [withChunks, h.same]
  · exact (if_neg ht).trans (h.others t ht)
  · show (if s = r.superframe_id_for_transmission then _ else _ : UInt16).toNat = _
    by_cases hs' : s = r.superframe_id_for_transmission
    · rw [if_pos hs', hs', hself, UInt16.toNat_add, h.unused _ hsid, Nat.mod_eq_of_lt hbound, Nat.add_assoc]
    · rw [if_neg hs', countsOf_concat, if_neg fun h' => hs' h'.symm, h.unused s hs, Nat.add_zero]
  · intro c hc
    rw [hlist] at hc
    rcases List.mem_append.1 hc with hc | hc
    · obtain ⟨x, hx, hid, hxs, hlo, hhi⟩ := h.within c hc
      exact ⟨x, List.mem_append_left _ hx, hid, hxs, hlo,
        Nat.le_trans hhi (Nat.add_le_add_left (hmono _) base)⟩
    · obtain ⟨hid, hlo, hhi⟩ := htiles.of_mem hc
      refine ⟨r, by simp, hid, hsid, by omega, ?_⟩
      rw [hself]
      omega
  · rw [hlist]
    refine List.pairwise_append.2 ⟨h.ordered, ?_, ?_⟩
    · exact htiles.ordered.imp fun hcd _ _ _ _ _ _ _ => hcd
    · intro c hc d hd x hx x' hx' hcx hdx hxx
      obtain ⟨y, hy, hid, -, -, hhi⟩ := h.within c hc
      obtain ⟨hid', hlo, -⟩ := htiles.of_mem hd
      obtain rfl := RcstInfoList.eq_of_rcst_id (hfront y hy) hx (hid.symm.trans hcx)
      obtain rfl := RcstInfoList.eq_of_rcst_id hr hx' (hid'.symm.trans hdx)
      rw [hxx] at hhi
      omega
  · intro x hx
    rw [hlist, cardOf_append]
    rcases List.mem_append.1 hx with hx | hx
    · rw [h.given x hx, cardOf_eq_zero (l := cs) fun c hc => ?_, Nat.add_zero]
      rw [(htiles.of_mem hc).1]
      exact (hne x hx).symm
    · rw [List.mem_singleton.1 hx, h.card_eq_zero hne, show cardOf r.rcst_id cs = _ from htiles.card, hnum]
      omega

/-- **Step lemma.** One more RCST gets its slots behind those of the RCSTs before it. -/
theorem layOut_ends {front back : List RcstInfo} (hinfos : rcst_infos.info_list = front ++ r :: back)
    (hV : V → r.superframe_id_for_transmission ≤ MAX_SUPERFRAME_ID ∧
      base + countsOf counts type r.superframe_id_for_transmission (front ++ [r]) ≤
        counts.num_total_slot.toNat)
    (h : LaidOut rcst_infos counts type base front record) :
    Ends (Stops V) (LaidOut rcst_infos counts type base (front ++ [r])) (layOut type record r) := by
  have hr : r ∈ rcst_infos.info_list := by rw [hinfos]; simp
  have hfront : ∀ x ∈ front, x ∈ rcst_infos.info_list := by
    intro x hx
    rw [hinfos]
    simp [hx]
  -- no RCST before has the same id
  have hne : ∀ x ∈ front, x.rcst_id ≠ r.rcst_id := by
    have hnd := rcst_infos.nodup
    rw [hinfos, List.map_append, List.nodup_append] at hnd
    exact fun x hx => hnd.2.2 _ (List.mem_map_of_mem hx) _ (by simp)
  have hnum : record.get_num_slot r.rcst_id type = counts.num_slot_of_rcst type r.rcst_id := by
    rw [h.same]
    rfl
  have htotal : record.num_total_slot = counts.num_total_slot := by
    rw [h.same]
    rfl
  unfold layOut
  dsimp only
  rw [hnum]
  generalize hn : counts.num_slot_of_rcst type r.rcst_id = num_slot
  by_cases hpos : num_slot > 0
  · rw [if_pos hpos]
    refine Ends.guard (fun hbig hv => absurd (hV hv).1 (UInt8.not_le.2 hbig)) fun hsid => ?_
    have hsid := UInt8.not_lt.1 hsid
    have hunused := h.unused _ hsid
    cases hcs : record.assign_slot r.rcst_id num_slot.toNat
        (record.first_unused_slot r.superframe_id_for_transmission) num_slot with
    | none =>
      -- there are enough slots
      refine fun hv => ?_
      have hfit := (hV hv).2
      rw [countsOf_concat, if_pos rfl, hn] at hfit
      have hroom : (record.first_unused_slot r.superframe_id_for_transmission).toNat +
          num_slot.toNat ≤ record.num_total_slot.toNat := by
        rw [htotal]
        omega
      obtain ⟨cs, hcs'⟩ : ∃ cs, record.assign_slot r.rcst_id num_slot.toNat
          (record.first_unused_slot r.superframe_id_for_transmission) num_slot = some cs :=
        assign_slot_fits num_slot.toNat hroom
      rw [hcs] at hcs'
      exact absurd hcs' (by simp)
    | some cs =>
      obtain ⟨htiles, hbound⟩ := assign_slot_tiles (Nat.le_refl _) hcs
      have hbound := hbound (UInt16.lt_iff_toNat_lt.1 hpos)
      have hlt := record.num_total_slot.toNat_lt
      rw [hunused] at htiles hbound
      exact Ends.ok (h.assign hfront hr hne hsid hn htiles (by omega))
  · rw [if_neg hpos]
    have h0 : num_slot.toNat = 0 := by
      rw [gt_iff_lt, UInt16.lt_iff_toNat_lt] at hpos
      exact Nat.eq_zero_of_not_pos hpos
    exact Ends.ok (h.skip hne (hn ▸ h0))

/-- All RCSTs, one after the other. -/
theorem layout_ends (hstart : LaidOut rcst_infos counts type base [] counts)
    (hV : V → (∀ r ∈ rcst_infos.info_list, r.superframe_id_for_transmission ≤ MAX_SUPERFRAME_ID) ∧
      ∀ s ≤ MAX_SUPERFRAME_ID,
        base + countsOf counts type s rcst_infos.info_list ≤ counts.num_total_slot.toNat) :
    Ends (Stops V) (LaidOut rcst_infos counts type base rcst_infos.info_list)
      (rcst_infos.info_list.foldlM (layOut type) counts) := by
  refine Ends.foldlM_prefix (fun front r back hinfos record h => ?_) hstart
  refine layOut_ends hinfos (fun hv => ?_) h
  obtain ⟨hsid, hfit⟩ := hV hv
  have hr := hsid r (by rw [hinfos]; simp)
  refine ⟨hr, Nat.le_trans ?_ (hfit _ hr)⟩
  rw [hinfos, List.append_cons front r back, countsOf_append _ (front ++ [r]) back]
  omega

/-- The layout of the data slots starts where the request slots end. -/
theorem startLayout_ends {p : SlotAssignmentRecord} (hb : Balanced rcst_infos total p)
    (h : LaidOut rcst_infos p .SLOT_TYPE_REQUEST 0 rcst_infos.info_list record) :
    ∃ first, record.startLayout .SLOT_TYPE_DATA = .ok { record with first_unused_slot := first } ∧
      ∀ s ≤ MAX_SUPERFRAME_ID, first s = record.num_total_slot_of .SLOT_TYPE_REQUEST := by
  refine ⟨_, if_neg (not_not.2 (List.all_eq_true.2 fun s hs => decide_eq_true ?_)), fun s hs =>
    if_pos hs⟩
  have hs' : (UInt8.ofNat s) ≤ MAX_SUPERFRAME_ID := by
    have := List.mem_range.1 hs
    rw [UInt8.le_iff_toNat_le, UInt8.toNat_ofNat_of_lt' (by show s < 2 ^ 8; omega)]
    show s ≤ 254
    omega
  have hreq : record.num_total_slot_of = total := by
    rw [h.same]
    exact hb.total_eq
  have hbal := hb.balance .SLOT_TYPE_REQUEST _ hs'
  rw [UInt16.le_iff_toNat_le, h.unused _ hs', hreq]
  show 0 + countedIn rcst_infos p .SLOT_TYPE_REQUEST _ ≤ _
  omega

/-- The counts of the data slots are not touched by the request slots. -/
theorem countsOf_data {p req : SlotAssignmentRecord} {first : UInt8 → UInt16}
    (hcounts : req.num_slot_of_rcst = p.num_slot_of_rcst) {type : SlotType} {s : UInt8} {l : List RcstInfo} :
    countsOf { req with first_unused_slot := first } type s l = countsOf p type s l := by
  show countsOf req type s l = _
  unfold countsOf
  rw [hcounts]

/-- The request slots and the data slots that are laid out make up the plan. -/
theorem plan_of_laidOut {p req data : SlotAssignmentRecord} {first : UInt8 → UInt16}
    (hb : Balanced rcst_infos total p)
    (hreq : LaidOut rcst_infos p .SLOT_TYPE_REQUEST 0 rcst_infos.info_list req)
    (hdata : LaidOut rcst_infos { req with first_unused_slot := first } .SLOT_TYPE_DATA
      (total .SLOT_TYPE_REQUEST).toNat rcst_infos.info_list data) : data.Plan rcst_infos p := by
  have hcounts : req.num_slot_of_rcst = p.num_slot_of_rcst := by rw [hreq.same]
  have htotal : data.num_total_slot_of = total := by
    rw [hdata.same]
    show req.num_total_slot_of = total
    rw [hreq.same]
    exact hb.total_eq
  have hresidual : data.num_residual_slot = p.num_residual_slot := by
    rw [hdata.same]
    show req.num_residual_slot = p.num_residual_slot
    rw [hreq.same]
  have hlist : data.slot_chunk_list .SLOT_TYPE_REQUEST = req.slot_chunk_list .SLOT_TYPE_REQUEST :=
    hdata.others _ (by decide)
  have hgiven : ∀ r ∈ rcst_infos.info_list, ∀ type,
      data.givenTo type r.rcst_id = (p.get_num_slot r.rcst_id type).toNat := by
    intro r hr type
    cases type with
    | SLOT_TYPE_DATA =>
      refine (hdata.given r hr).trans ?_
      show (req.num_slot_of_rcst _ _).toNat = _
      rw [hcounts]
      rfl
    | SLOT_TYPE_REQUEST =>
      show cardOf r.rcst_id (data.slot_chunk_list .SLOT_TYPE_REQUEST) = _
      rw [hlist]
      exact hreq.given r hr
  have hreqWithin : ∀ c ∈ data.slot_chunk_list .SLOT_TYPE_REQUEST, ∃ r ∈ rcst_infos.info_list,
      c.rcst_id = r.rcst_id ∧ c.stop ≤ (total .SLOT_TYPE_REQUEST).toNat := by
    intro c hc
    obtain ⟨r, hr, hid, hs, -, hstop⟩ := hreq.within c (hlist ▸ hc)
    have hbal := hb.balance .SLOT_TYPE_REQUEST _ hs
    have hcount : countsOf p .SLOT_TYPE_REQUEST r.superframe_id_for_transmission
      rcst_infos.info_list = countedIn rcst_infos p .SLOT_TYPE_REQUEST _ := rfl
    exact ⟨r, hr, hid, by omega⟩
  have hdataWithin : ∀ c ∈ data.slot_chunk_list .SLOT_TYPE_DATA, ∃ r ∈ rcst_infos.info_list,
      c.rcst_id = r.rcst_id ∧ (total .SLOT_TYPE_REQUEST).toNat ≤ c.start_slot.toNat ∧
        c.stop ≤ (total .SLOT_TYPE_REQUEST).toNat + (total .SLOT_TYPE_DATA).toNat := by
    intro c hc
    obtain ⟨r, hr, hid, hs, hlo, hstop⟩ := hdata.within c hc
    have hbal := hb.balance .SLOT_TYPE_DATA _ hs
    rw [countsOf_data hcounts] at hstop
    have hcount : countsOf p .SLOT_TYPE_DATA r.superframe_id_for_transmission
      rcst_infos.info_list = countedIn rcst_infos p .SLOT_TYPE_DATA _ := rfl
    exact ⟨r, hr, hid, hlo, by omega⟩
  have hordered : (data.slot_chunk_list .SLOT_TYPE_REQUEST ++
      data.slot_chunk_list .SLOT_TYPE_DATA).Pairwise (Before rcst_infos) := by
    refine List.pairwise_append.2 ⟨hlist ▸ hreq.ordered, hdata.ordered, ?_⟩
    intro c hc d hd _ _ _ _ _ _ _
    obtain ⟨-, -, -, hstop⟩ := hreqWithin c hc
    obtain ⟨-, -, -, hlo, -⟩ := hdataWithin d hd
    exact Nat.le_trans hstop hlo
  refine ⟨fun type c hc => ?_, fun s => ?_, fun c hc => ?_, fun c hc => ?_, hgiven,
    fun type s hs => ?_⟩
  · cases type with
    | SLOT_TYPE_DATA =>
      obtain ⟨r, hr, hid, -⟩ := hdataWithin c hc
      exact ⟨r, hr, hid⟩
    | SLOT_TYPE_REQUEST =>
      obtain ⟨r, hr, hid, -⟩ := hreqWithin c hc
      exact ⟨r, hr, hid⟩
  · refine (hordered.filter _).imp_of_mem fun {c d} hc hd hcd => ?_
    obtain ⟨r, hr, hid, hs⟩ := RcstInfoList.mem_of_lookup (of_decide_eq_true (List.mem_filter.1 hc).2)
    obtain ⟨r', hr', hid', hs'⟩ :=
      RcstInfoList.mem_of_lookup (of_decide_eq_true (List.mem_filter.1 hd).2)
    exact SlotAssignment.disjoint_slots (hcd r hr r' hr' hid.symm hid'.symm (hs.trans hs'.symm))
  · obtain ⟨-, -, -, hstop⟩ := hreqWithin c hc
    rw [htotal]
    exact SlotAssignment.slots_subset (Nat.zero_le _) hstop
  · obtain ⟨-, -, -, hlo, hstop⟩ := hdataWithin c hc
    rw [htotal]
    exact SlotAssignment.slots_subset hlo hstop
  · rw [htotal, hresidual, ← hb.balance type s hs]
    refine congrArg (· + _) (congrArg List.sum ?_)
    exact List.map_congr_left fun r hr => hgiven r (List.mem_filter.1 hr).1 type

/-- Setting up the slot assignment ends with a plan; with a configuration that fits nothing stops it. -/
theorem set_up_ends {p : SlotAssignmentRecord} (hb : Balanced rcst_infos total p)
    (hV : V → (∀ r ∈ rcst_infos.info_list, r.superframe_id_for_transmission ≤ MAX_SUPERFRAME_ID) ∧
      (total .SLOT_TYPE_REQUEST).toNat + (total .SLOT_TYPE_DATA).toNat < 2 ^ 16) :
    Ends (Stops V) (fun record => record.Plan rcst_infos p)
      (p.set_up_slot_assignment rcst_infos) := by
  have hsum : V → p.num_total_slot.toNat =
      (total .SLOT_TYPE_DATA).toNat + (total .SLOT_TYPE_REQUEST).toNat := by
    intro hv
    rw [SlotAssignmentRecord.num_total_slot, hb.total_eq, UInt16.toNat_add]
    exact Nat.mod_eq_of_lt (by have := (hV hv).2; omega)
  -- the request slots
  have hstart : LaidOut rcst_infos p .SLOT_TYPE_REQUEST 0 [] p :=
    .nil (fun s _ => by rw [hb.first_unused]; rfl) (by rw [hb.no_chunk])
  refine Ends.bind (layout_ends hstart fun hv => ⟨(hV hv).1, fun s hs => ?_⟩) fun req hreq => ?_
  · have hbal := hb.balance .SLOT_TYPE_REQUEST s hs
    rw [hsum hv]
    show 0 + countedIn rcst_infos p .SLOT_TYPE_REQUEST s ≤ _
    omega
  -- the data slots
  obtain ⟨first, hfirst, hunused⟩ := startLayout_ends hb hreq
  show Ends (Stops V) _ (req.startLayout .SLOT_TYPE_DATA >>= _)
  rw [hfirst]
  have htotal : req.num_total_slot_of = total := by
    rw [hreq.same]
    exact hb.total_eq
  have hcounts : req.num_slot_of_rcst = p.num_slot_of_rcst := by rw [hreq.same]
  have hstart' : LaidOut rcst_infos { req with first_unused_slot := first } .SLOT_TYPE_DATA
      (total .SLOT_TYPE_REQUEST).toNat [] { req with first_unused_slot := first } := by
    refine .nil (fun s hs => ?_) ?_
    · show (first s).toNat = _
      rw [hunused s hs, htotal]
    · exact (hreq.others _ (by decide)).trans (by rw [hb.no_chunk])
  refine (layout_ends hstart' fun hv => ⟨(hV hv).1, fun s hs => ?_⟩).mono (fun _ h => h)
    fun data hdata => plan_of_laidOut hb hreq hdata
  have hbal := hb.balance .SLOT_TYPE_DATA s hs
  rw [countsOf_data hcounts]
  show _ + countedIn rcst_infos p .SLOT_TYPE_DATA s ≤ req.num_total_slot.toNat
  rw [show req.num_total_slot = p.num_total_slot by rw [hreq.same]; rfl, hsum hv]
  omega

/-- The plan of every scheduling that ends is free of conflicts and complete. With a configuration that
    fits, only what the configuration or the requests ask for can stop it. -/
theorem scheduling_plan (ncc : NccSlots) (rcst_infos : RcstInfoList) (fuel : Nat)
    (s : TimeslotScheduler) :
    (∀ t, scheduling ncc rcst_infos fuel s = .ok t → ∃ p, passes ncc rcst_infos fuel s = .ok p ∧
      t.slot_assignment_record.Plan rcst_infos p.slot_assignment_record) ∧
    (s.Fits ncc rcst_infos fuel → ∀ e, scheduling ncc rcst_infos fuel s = .error e →
      e = .config ∨ e = .exit ∨ e = .division) := by
  have hpasses := @passes_ends (s.Fits ncc rcst_infos fuel) ncc rcst_infos fuel s id
  have hends : Ends (Stops (s.Fits ncc rcst_infos fuel)) (fun t => ∃ p,
      passes ncc rcst_infos fuel s = .ok p ∧
        t.slot_assignment_record.Plan rcst_infos p.slot_assignment_record)
      (scheduling ncc rcst_infos fuel s) := by
    unfold scheduling
    obtain ⟨p, hp, hb⟩ | ⟨e, he, hE⟩ := hpasses.cases
    · rw [hp]
      exact (set_up_ends hb fun h => ⟨h.superframe_id, h.num_total_slot⟩).bind
        fun record hplan => ⟨p, rfl, hplan⟩
    · rw [he]
      exact hE
  constructor
  · intro t ht
    rw [ht] at hends
    exact hends
  · intro hfits e he
    rw [he] at hends
    exact hends hfits

/-- Two RCSTs on a superframe of seven slots: CRA and RBDC for the first, VBDC for the second, and the
    rest for both. -/
def twoRcsts : RcstInfoList where
  info_list := [
    ⟨⟨0, 1⟩, .RCST_STATE_FINE_SYNC, 0, 1, 9, 9, 1⟩,
    ⟨⟨0, 2⟩, .RCST_STATE_FINE_SYNC, 0, 0, 2, 0, 1⟩]
  logon_distinct := by decide

/-- Two cells for each slot, and one superframe. -/
def twoSlots : NccSlots where
  num_of_atm_per_slot := 2
  num_of_frame_per_superframe := 1
  bps_to_spf := id
  spf_to_bps := id
  max_superframe_id := 0
  fca_turned_on := true
  double_overflow _ := 0

/-- Five slots for data, a rate request of one terminal and a volume request of another one. -/
def twoScheduler : TimeslotScheduler where
  heap_of_capacity_request := ⟨[⟨⟨0, 1⟩, 1⟩], [⟨⟨0, 2⟩, 5⟩], []⟩
  rcst_credits := []
  it_rcst_info_list _ := 0
  it_rr _ := 0
  slot_assignment_record :=
    ⟨fun | .SLOT_TYPE_DATA => 5 | .SLOT_TYPE_REQUEST => 2, fun _ _ => 0, fun _ => 0, fun _ _ => 0,
      fun _ => []⟩

set_option maxRecDepth 100000 in
/-- Two terminals, one with a rate and one with a volume. -/
theorem scheduling_plan_two :
    twoScheduler.Fits twoSlots twoRcsts (2 ^ 18) ∧
      (∀ e, scheduling twoSlots twoRcsts (2 ^ 18) twoScheduler = .error e →
        e = .config ∨ e = .exit ∨ e = .division) ∧
      ∃ t, scheduling twoSlots twoRcsts (2 ^ 18) twoScheduler = .ok t ∧
        ∃ p, passes twoSlots twoRcsts (2 ^ 18) twoScheduler = .ok p ∧
          t.slot_assignment_record.Plan twoRcsts p.slot_assignment_record := by
  have hfits : twoScheduler.Fits twoSlots twoRcsts (2 ^ 18) :=
    ⟨by decide, by decide, by decide, fun _ _ => Nat.zero_lt_two, fun _ _ => Nat.zero_lt_two, by decide⟩
  obtain ⟨hplan, herror⟩ := scheduling_plan twoSlots twoRcsts (2 ^ 18) twoScheduler
  have hok : (scheduling twoSlots twoRcsts (2 ^ 18) twoScheduler).toOption.isSome = true := by
    decide +kernel
  obtain ⟨t, ht⟩ : ∃ t, scheduling twoSlots twoRcsts (2 ^ 18) twoScheduler = .ok t := by
    cases h : scheduling twoSlots twoRcsts (2 ^ 18) twoScheduler with
    | error e => rw [h] at hok; exact absurd hok Bool.false_ne_true
    | ok t => exact ⟨t, rfl⟩
  exact ⟨hfits, herror hfits, t, ht, hplan t ht⟩

end Dvb
