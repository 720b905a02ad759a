import Mathlib.Data.List.Forall2
import Nctuns.Opt.Obsw

/-!
# Reservations of the optical burst switch

As long as a control packet contends with no more than the one record that the switch looks for, the
reserved intervals of a wavelength of a port are disjoint.
-/

namespace Opt

theorem u64_lt (z : Int) : u64 z < 2 ^ 64 := by
  have hlt := Int.emod_lt_of_pos z (by decide : (0 : Int) < 2 ^ 64)
  have hnonneg := Int.emod_nonneg z (by decide : (2 ^ 64 : Int) ≠ 0)
  unfold u64
  omega

theorem u64_of_lt {n : Nat} (h : n < 2 ^ 64) : u64 n = n := by
  unfold u64
  rw [Int.emod_eq_of_lt (Int.natCast_nonneg n) (by exact_mod_cast h), Int.toNat_natCast]

/-- A duration up to a time leads to that time. -/
theorem u64_add_sub (a : Nat) {b : Nat} (hb : b < 2 ^ 64) : u64 (a + u64 (b - a)) = b := by
  have hnonneg := Int.emod_nonneg ((b : Int) - a) (by decide : (2 ^ 64 : Int) ≠ 0)
  have hsum : ((a : Int) + (((b : Int) - a) % 2 ^ 64)) % 2 ^ 64 = (b : Int) % 2 ^ 64 := by
    rw [Int.add_emod, Int.emod_emod_of_dvd _ (Int.dvd_refl _), ← Int.add_emod]
    congr 1
    omega
  have htoNat : ((u64 ((b : Int) - a) : Nat) : Int) = ((b : Int) - a) % 2 ^ 64 := by
    unfold u64
    exact Int.toNat_of_nonneg hnonneg
  rw [htoNat]
  unfold u64
  rw [hsum, Int.emod_eq_of_lt (Int.natCast_nonneg b) (by exact_mod_cast hb), Int.toNat_natCast]

/-! ## Records -/

/-- The record `r'` is the record `r` with a part of its interval. -/
structure Shrinks (r' r : Datapacket) : Prop where
  nextport : r'.nextport = r.nextport
  wavelength : r'.wavelength = r.wavelength
  interval : r'.interval ⊆ r.interval
  asked : r'.asked = r.asked

theorem Shrinks.refl (r : Datapacket) : Shrinks r r := ⟨rfl, rfl, Set.Subset.rfl, rfl⟩

/-- The test of the source is that of the intervals. -/
theorem not_overlaps_iff (start end_ : Nat) (r : Datapacket) :
    ¬ Obsw.Overlaps start end_ r ↔ Disjoint (Set.Ico start end_) r.interval := by
  unfold Obsw.Overlaps Datapacket.interval
  rw [Set.Ico_disjoint_Ico, Nat.not_lt]

/-- One reservation ends before the other one begins. -/
theorem disjoint_of_le {r q : Datapacket} (h : r.end_transmit_time ≤ q.start_transmit_time) :
    Disjoint r.interval q.interval := by
  unfold Datapacket.interval
  rw [Set.Ico_disjoint_Ico]
  omega

theorem interval_eq_empty {r : Datapacket} (h : r.end_transmit_time ≤ r.start_transmit_time) :
    r.interval = ∅ := Set.Ico_eq_empty (Nat.not_lt.2 h)

/-! ## Lists of records -/

section Lists

variable {α : Type*} {R : α → α → Prop}

/-- One element is changed, the others stay. -/
theorem modifyFirst_forall₂ {p : α → Bool} {f : α → α} {xs : List α} (hrefl : ∀ x ∈ xs, R x x)
    (h : ∀ x ∈ xs.find? p, R (f x) x) : List.Forall₂ R (Obsw.modifyFirst p f xs) xs := by
  induction xs with
  | nil => exact List.Forall₂.nil
  | cons x xs ih =>
    unfold Obsw.modifyFirst
    have hsame : List.Forall₂ R xs xs := List.forall₂_same.2 fun y hy => hrefl y (List.mem_cons_of_mem _ hy)
    cases hp : p x with
    | true => exact List.Forall₂.cons (h x (by rw [List.find?_cons_of_pos hp]; rfl)) hsame
    | false =>
      refine List.Forall₂.cons (hrefl x List.mem_cons_self) (ih (fun y hy => hrefl y (List.mem_cons_of_mem _ hy)) ?_)
      rwa [List.find?_cons_of_neg (by simp [hp])] at h

/-- An element is the changed one, or it stands beside that one. -/
theorem mem_modifyFirst_of_pairwise {p : α → Bool} {f : α → α} {xs : List α} (hxs : xs.Pairwise R) {y : α}
    (h : y ∈ Obsw.modifyFirst p f xs) :
    (∃ x ∈ xs.find? p, y = f x) ∨ (y ∈ xs ∧ ∀ x ∈ xs.find? p, R x y ∨ R y x) := by
  induction xs with
  | nil => exact absurd h List.not_mem_nil
  | cons x xs ih =>
    rw [List.pairwise_cons] at hxs
    unfold Obsw.modifyFirst at h
    cases hp : p x with
    | true =>
      rw [hp, if_pos rfl] at h
      rw [List.find?_cons_of_pos hp]
      rcases List.mem_cons.1 h with rfl | h
      · exact Or.inl ⟨x, rfl, rfl⟩
      · refine Or.inr ⟨List.mem_cons_of_mem _ h, ?_⟩
        intro z hz
        obtain rfl := Option.some.inj hz
        exact Or.inl (hxs.1 y h)
    | false =>
      rw [hp, if_neg Bool.false_ne_true] at h
      rw [List.find?_cons_of_neg (by simp [hp])]
      rcases List.mem_cons.1 h with rfl | h
      · exact Or.inr ⟨List.mem_cons_self, fun z hz => Or.inr (hxs.1 z (List.mem_of_find?_eq_some hz))⟩
      · exact (ih hxs.2 h).imp id fun hy => ⟨List.mem_cons_of_mem _ hy.1, hy.2⟩

/-- An element is an old one, or the changed one. -/
theorem mem_modifyFirst {p : α → Bool} {f : α → α} {xs : List α} {y : α}
    (h : y ∈ Obsw.modifyFirst p f xs) : y ∈ xs ∨ ∃ x ∈ xs.find? p, y = f x :=
  (mem_modifyFirst_of_pairwise (R := fun _ _ => True) (List.pairwise_of_forall fun _ _ => trivial) h).symm.imp
    And.left id

/-- Every element of one list has its partner. -/
theorem Forall₂.exists_of_mem {S : α → α → Prop} {xs ys : List α} (h : List.Forall₂ S ys xs) :
    ∀ y ∈ ys, ∃ x ∈ xs, S y x := by
  induction h with
  | nil => exact fun y hy => absurd hy List.not_mem_nil
  | @cons y x ys xs hyx hrest ih =>
    intro z hz
    rcases List.mem_cons.1 hz with rfl | hz
    · exact ⟨x, List.mem_cons_self, hyx⟩
    · obtain ⟨w, hw, hzw⟩ := ih z hz
      exact ⟨w, List.mem_cons_of_mem _ hw, hzw⟩

/-- A property of pairs that changes keep. -/
theorem Forall₂.pairwise {S : α → α → Prop} {xs ys : List α} (h : List.Forall₂ S ys xs)
    (hR : ∀ {x y x' y'}, S x' x → S y' y → R x y → R x' y') (hxs : xs.Pairwise R) : ys.Pairwise R := by
  induction h with
  | nil => exact List.Pairwise.nil
  | @cons y x ys xs hyx hrest ih =>
    rw [List.pairwise_cons] at hxs ⊢
    refine ⟨?_, ih hxs.2⟩
    intro z hz
    obtain ⟨w, hw, hzw⟩ := Forall₂.exists_of_mem hrest z hz
    exact hR hyx hzw (hxs.1 w hw)

/-- Elements are cut out. -/
theorem cutOut_sublist (p : α → Bool) (xs : List α) : (Obsw.cutOut p xs).Sublist xs := by
  unfold Obsw.cutOut
  split
  · exact List.Sublist.refl _
  · exact List.eraseP_sublist

end Lists

namespace Obsw

variable {s s' : Obsw}

/-! ## Steps that take no new time -/

/-- All times are of 64 bits. -/
structure Inv (s : Obsw) : Prop where
  reserved : s.Reserved
  start_lt : ∀ r ∈ s.datapkts, r.start_transmit_time < 2 ^ 64
  end_lt : ∀ r ∈ s.datapkts, r.end_transmit_time < 2 ^ 64

/-- The same reservations. -/
theorem Inv.congr (h : s.Inv) (hs : s'.datapkts = s.datapkts) : s'.Inv := by
  obtain ⟨⟨hdisjoint, hasked⟩, hstart, hend⟩ := h
  rw [← hs] at hdisjoint hasked hstart hend
  exact ⟨⟨hdisjoint, hasked⟩, hstart, hend⟩

/-- Fewer reservations. -/
theorem Inv.sublist (h : s.Inv) (hs : s'.datapkts.Sublist s.datapkts) : s'.Inv where
  reserved := ⟨h.reserved.disjoint.sublist hs, fun r hr => h.reserved.asked r (hs.subset hr)⟩
  start_lt r hr := h.start_lt r (hs.subset hr)
  end_lt r hr := h.end_lt r (hs.subset hr)

/-- Records lose a part of their intervals. -/
theorem Reserved.shrink (h : s.Reserved) (hs : List.Forall₂ Shrinks s'.datapkts s.datapkts) :
    s'.Reserved where
  disjoint := Forall₂.pairwise hs (fun hx hy hxy hport hwave =>
    (hxy (by rw [← hx.nextport, ← hy.nextport, hport]) (by rw [← hx.wavelength, ← hy.wavelength, hwave])).mono
      hx.interval hy.interval) h.disjoint
  asked r hr := by
    obtain ⟨q, hq, hrq⟩ := Forall₂.exists_of_mem hs r hr
    rw [hrq.asked]
    exact hrq.interval.trans (h.asked q hq)

/-- A record ends earlier. -/
theorem shrinks_end {r : Datapacket} {end_ : Nat}
    (h : end_ ≤ r.end_transmit_time ∨ end_ ≤ r.start_transmit_time) :
    Shrinks { r with end_transmit_time := end_ } r := by
  refine ⟨rfl, rfl, ?_, rfl⟩
  rcases h with h | h
  · exact Set.Ico_subset_Ico_right h
  · rw [interval_eq_empty (r := { r with end_transmit_time := end_ }) h]
    exact Set.empty_subset _

/-- A reservation that is cut short. -/
theorem Inv.update_prevOL_datapkt (h : s.Inv) {b : Burst} {d : Nat} (hd : s.Shortens b d) :
    (s.update_prevOL_datapkt b d).Inv where
  reserved := h.reserved.shrink (modifyFirst_forall₂ (fun r _ => Shrinks.refl r) fun r hr => shrinks_end (hd r hr))
  start_lt r hr := by
    rcases mem_modifyFirst hr with hr | ⟨q, hq, rfl⟩
    · exact h.start_lt r hr
    · exact h.start_lt q (List.mem_of_find?_eq_some hq)
  end_lt r hr := by
    rcases mem_modifyFirst hr with hr | ⟨q, hq, rfl⟩
    · exact h.end_lt r hr
    · exact u64_lt (q.start_transmit_time + d)

/-- A record is added. -/
theorem Inv.append (h : s.Inv) {r : Datapacket} (hs : s'.datapkts = s.datapkts ++ [r])
    (hstart : r.start_transmit_time < 2 ^ 64) (hend : r.end_transmit_time < 2 ^ 64)
    (hdisjoint : ∀ q ∈ s.datapkts, q.nextport = r.nextport → q.wavelength = r.wavelength →
      Disjoint q.interval r.interval) (hasked : r.interval ⊆ r.asked) : s'.Inv := by
  have hmem : ∀ q ∈ s'.datapkts, q ∈ s.datapkts ∨ q = r := by
    intro q hq
    rw [hs] at hq
    exact (List.mem_append.1 hq).imp id List.mem_singleton.1
  refine ⟨⟨?_, ?_⟩, ?_, ?_⟩
  · rw [hs]
    refine List.pairwise_append.2 ⟨h.reserved.disjoint, List.pairwise_singleton _ _, ?_⟩
    intro q hq p hp
    obtain rfl := List.mem_singleton.1 hp
    exact hdisjoint q hq
  · intro q hq
    rcases hmem q hq with hq | rfl
    · exact h.reserved.asked q hq
    · exact hasked
  · intro q hq
    rcases hmem q hq with hq | rfl
    · exact h.start_lt q hq
    · exact hstart
  · intro q hq
    rcases hmem q hq with hq | rfl
    · exact h.end_lt q hq
    · exact hend

/-! ## Control packets -/

/-- What `reserve_duration` records. -/
def reservation (s : Obsw) (c : Control) (start : Nat) : Datapacket where
  burstid := c.burstid
  src := c.src
  dst := c.dst
  nextport := c.nextport
  wavelength := u8 c.DataWave
  node_current_time := s.now
  start_transmit_time := start
  end_transmit_time := s.endx_time c
  asked_start := s.startx_time c
  asked_end := s.endx_time c

variable {c : Control} {f : Datapacket}

/-- No overlap is found: the reservation is made as asked for. -/
theorem getControl_none (hf : s.findpkt (s.startx_time c) c.nextport c.DataWave = none) :
    (s.getControl c).datapkts = s.datapkts ++ [s.reservation c (s.startx_time c)] ∨
      (s.getControl c).datapkts = s.datapkts ++ [s.reservation c (u64 (s.endx_time c + 1))] ∧
        s.startx_time c = 0 := by
  unfold startx_time at hf
  simp only [getControl, reserve_duration, check_if_reserve_time_overlap, hf]
  cases s.drop_burst_segmentation_method with
  | headDrop =>
    left
    simp only [reservation, startx_time, endx_time]
  | tailDrop =>
    left
    simp only [reservation, startx_time, endx_time]
  | dropAll =>
    by_cases hzero : u64 (s.now + c.offset) = 0
    · right
      refine ⟨?_, hzero⟩
      simp only [if_pos hzero]
      rfl
    · left
      simp only [if_neg hzero]
      rfl

/-- The overlapping burst is dropped. -/
theorem getControl_dropAll (hf : s.findpkt (s.startx_time c) c.nextport c.DataWave = some f)
    (hmethod : s.drop_burst_segmentation_method = .dropAll) :
    (s.getControl c).datapkts = s.datapkts ++ [s.reservation c (u64 (s.endx_time c + 1))] := by
  unfold startx_time at hf
  simp only [getControl, reserve_duration, check_if_reserve_time_overlap, hf, hmethod, if_true]
  rfl

/-- The head of the new burst is dropped. -/
theorem getControl_headDrop (hf : s.findpkt (s.startx_time c) c.nextport c.DataWave = some f)
    (hmethod : s.drop_burst_segmentation_method = .headDrop) :
    (s.getControl c).datapkts = s.datapkts ++ [s.reservation c f.end_transmit_time] := by
  unfold startx_time at hf
  simp only [getControl, reserve_duration, check_if_reserve_time_overlap, hf, hmethod]
  rfl

/-- The tail of the earlier burst is dropped. -/
theorem getControl_tailDrop (hf : s.findpkt (s.startx_time c) c.nextport c.DataWave = some f)
    (hmethod : s.drop_burst_segmentation_method = .tailDrop) :
    (s.getControl c).datapkts =
      (s.update_prevOL_datapkt f.toBurst (u64 (s.startx_time c - f.start_transmit_time))).datapkts ++
        [s.reservation c (s.startx_time c)] := by
  unfold startx_time at hf
  simp only [getControl, reserve_duration, check_if_reserve_time_overlap, hf, hmethod,
    update_prevOL_datapkt, update_prevOL_contrlpkt]
  rfl

/-- What is found is a reservation that has not ended. -/
theorem findpkt_some (hf : s.findpkt (s.startx_time c) c.nextport c.DataWave = some f) :
    f ∈ s.datapkts ∧ s.startx_time c < f.end_transmit_time := by
  unfold findpkt at hf
  split at hf
  · cases hf
  · have hmatch := List.find?_some hf
    simp only [decide_eq_true_eq] at hmatch
    exact ⟨List.mem_of_find?_eq_some hf, hmatch.2.2⟩

/-- A reservation that starts after what was asked for is empty. -/
theorem reservation_dropped (hend : s.endx_time c + 1 < 2 ^ 64) :
    (s.reservation c (u64 (s.endx_time c + 1))).interval = ∅ := by
  have hnext : u64 (s.endx_time c + 1) = s.endx_time c + 1 := by
    have hcast : ((s.endx_time c : Int) + 1) = ((s.endx_time c + 1 : Nat) : Int) := by omega
    rw [hcast, u64_of_lt hend]
  rw [hnext]
  exact interval_eq_empty (Nat.le_succ _)

/-- A reservation for what was asked for. -/
theorem Inv.append_asked (h : s.Inv) (hs : s'.datapkts = s.datapkts ++ [s.reservation c (s.startx_time c)])
    (halone : s.Alone c none) : s'.Inv := by
  refine h.append hs (u64_lt (s.now + c.offset)) (u64_lt (s.startx_time c + c.duration_)) ?_ Set.Subset.rfl
  intro r hr hport hwave
  exact ((not_overlaps_iff _ _ r).1 (halone r hr hport hwave (Option.some_ne_none r))).symm

/-- A reservation for nothing. -/
theorem Inv.append_empty (h : s.Inv) {start : Nat} (hs : s'.datapkts = s.datapkts ++ [s.reservation c start])
    (hstart : start < 2 ^ 64) (hempty : (s.reservation c start).interval = ∅) : s'.Inv := by
  refine h.append hs hstart (u64_lt (s.startx_time c + c.duration_)) ?_ ?_
  · intro r hr hport hwave
    rw [hempty]
    exact Set.disjoint_empty _
  · rw [hempty]
    exact Set.empty_subset _

/-- What is left of the burst starts where the record at which the search stops ends. -/
theorem Inv.append_headDrop (h : s.Inv) (hf : s.findpkt (s.startx_time c) c.nextport c.DataWave = some f)
    (hs : s'.datapkts = s.datapkts ++ [s.reservation c f.end_transmit_time])
    (halone : s.Alone c (some f)) : s'.Inv := by
  obtain ⟨hmem, hlt⟩ := findpkt_some hf
  have hsub : (s.reservation c f.end_transmit_time).interval ⊆ Set.Ico (s.startx_time c) (s.endx_time c) :=
    Set.Ico_subset_Ico_left (Nat.le_of_lt hlt)
  refine h.append hs (h.end_lt f hmem) (u64_lt (s.startx_time c + c.duration_)) ?_ hsub
  intro r hr hport hwave
  by_cases hrf : r = f
  · exact disjoint_of_le (Nat.le_of_eq (congrArg Datapacket.end_transmit_time hrf))
  · exact ((not_overlaps_iff _ _ r).1 (halone r hr hport hwave fun hsome => hrf (Option.some.inj hsome))).symm.mono_right hsub

/-- The record at which the search stops ends where the burst starts. -/
theorem Inv.append_tailDrop (h : s.Inv) (hf : s.findpkt (s.startx_time c) c.nextport c.DataWave = some f)
    (hs : s'.datapkts = (s.update_prevOL_datapkt f.toBurst
      (u64 (s.startx_time c - f.start_transmit_time))).datapkts ++ [s.reservation c (s.startx_time c)])
    (hfirst : (s.datapkts.find? fun q => q.toBurst = f.toBurst) = some f)
    (halone : s.Alone c (some f)) : s'.Inv := by
  obtain ⟨hmem, hlt⟩ := findpkt_some hf
  have hcut : u64 (f.start_transmit_time + u64 (s.startx_time c - f.start_transmit_time)) = s.startx_time c :=
    u64_add_sub _ (u64_lt (s.now + c.offset))
  have hshort : s.Shortens f.toBurst (u64 (s.startx_time c - f.start_transmit_time)) := by
    intro r hr
    rw [hfirst] at hr
    obtain rfl := Option.some.inj hr
    left
    rw [hcut]
    exact Nat.le_of_lt hlt
  refine (h.update_prevOL_datapkt hshort).append hs (u64_lt (s.now + c.offset))
    (u64_lt (s.startx_time c + c.duration_)) ?_ Set.Subset.rfl
  intro r hr hport hwave
  have hcutf : Disjoint { f with end_transmit_time := s.startx_time c }.interval
      (s.reservation c (s.startx_time c)).interval := disjoint_of_le (Nat.le_refl _)
  rcases mem_modifyFirst_of_pairwise h.reserved.disjoint hr with ⟨q, hq, rfl⟩ | ⟨hr, hbeside⟩
  · rw [hfirst] at hq
    obtain rfl := Option.some.inj hq
    rw [hcut]
    exact hcutf
  · by_cases hrf : r = f
    · -- A second copy of the record is disjoint from the first, so both are empty.
      subst hrf
      have hself : Disjoint r.interval r.interval := by
        rcases hbeside r hfirst with hbeside | hbeside <;> exact hbeside rfl rfl
      rw [disjoint_self.1 hself]
      exact disjoint_bot_left
    · exact ((not_overlaps_iff _ _ r).1 (halone r hr hport hwave fun hsome => hrf (Option.some.inj hsome))).symm

/-- **A control packet** that is handled. -/
theorem Inv.getControl (h : s.Inv) (hc : s.Handled c) : (s.getControl c).Inv := by
  unfold Handled at hc
  cases hf : s.findpkt (s.startx_time c) c.nextport c.DataWave with
  | none =>
    rw [hf] at hc
    rcases getControl_none hf with hs | ⟨hs, hzero⟩
    · exact h.append_asked hs hc
    · by_cases hend : s.endx_time c + 1 < 2 ^ 64
      · exact h.append_empty hs (u64_lt (s.endx_time c + 1)) (reservation_dropped hend)
      · have hlast : u64 (s.endx_time c + 1) = s.startx_time c := by
          have hlt : s.endx_time c < 2 ^ 64 := u64_lt (s.startx_time c + c.duration_)
          have hcast : ((s.endx_time c : Int) + 1) = 2 ^ 64 := by omega
          rw [hcast, hzero]
          unfold u64
          rfl
        rw [hlast] at hs
        exact h.append_asked hs hc
  | some f =>
    rw [hf] at hc
    cases hmethod : s.drop_burst_segmentation_method with
    | dropAll =>
      rw [hmethod] at hc
      exact h.append_empty (getControl_dropAll hf hmethod) (u64_lt (s.endx_time c + 1)) (reservation_dropped hc)
    | headDrop =>
      rw [hmethod] at hc
      exact h.append_headDrop hf (getControl_headDrop hf hmethod) hc
    | tailDrop =>
      rw [hmethod] at hc
      exact h.append_tailDrop hf (getControl_tailDrop hf hmethod) hc.2 hc.1

/-! ## Control packets of one tick -/

/-- What the routine for the control packets of one tick leaves as it is: the reservations and the keys. -/
structure Keeps (s s' : Obsw) : Prop where
  datapkts : s'.datapkts = s.datapkts
  keys : s'.contrlpkts.map (fun c => (c.id, c.toBurst)) = s.contrlpkts.map fun c => (c.id, c.toBurst)

theorem Keeps.refl (s : Obsw) : Keeps s s := ⟨rfl, rfl⟩

theorem Keeps.trans {t : Obsw} (h : Keeps s s') (h' : Keeps s' t) : Keeps s t :=
  ⟨h'.datapkts.trans h.datapkts, h'.keys.trans h.keys⟩

/-- Records change, but for their keys. -/
theorem keeps_map {f : Controlpkt → Controlpkt} (hf : ∀ c ∈ s.contrlpkts, (f c).id = c.id ∧ (f c).toBurst = c.toBurst) :
    Keeps s { s with contrlpkts := s.contrlpkts.map f } where
  datapkts := rfl
  keys := by
    show (s.contrlpkts.map f).map _ = _
    rw [List.map_map]
    refine List.map_congr_left ?_
    intro c hc
    exact Prod.ext (hf c hc).1 (hf c hc).2

/-- A control packet with the key of no reservation. -/
def Free (s : Obsw) (id : Nat) : Prop := ∀ c ∈ s.contrlpkts, c.id = id → ∀ r ∈ s.datapkts, ¬ Hits c r

/-- A packet without an overlap keeps that. -/
theorem Free.keeps {id : Nat} (h : s.Free id) (hk : Keeps s s') : s'.Free id := by
  intro c hc hid r hr hhits
  have hkey : (c.id, c.toBurst) ∈ s.contrlpkts.map fun c => (c.id, c.toBurst) := by
    rw [← hk.keys]
    exact List.mem_map_of_mem hc
  obtain ⟨d, hd, hdc⟩ := List.mem_map.1 hkey
  obtain ⟨hdid, hdburst⟩ := Prod.mk.inj hdc
  rw [hk.datapkts] at hr
  refine h d hd (hdid.trans hid) r hr ?_
  unfold Hits at hhits ⊢
  rw [hdburst]
  exact hhits

/-- No reservation is hit. -/
theorem update_datapkt_keeps {c : Controlpkt} (h : ∀ r ∈ s.datapkts, ¬ Hits c r) :
    Keeps s (s.update_datapkt c) := by
  refine ⟨?_, rfl⟩
  show s.datapkts.map _ = s.datapkts
  refine (List.map_congr_left ?_).trans (List.map_id _)
  intro r hr
  exact if_neg (h r hr)

theorem control?_some {id : Nat} {c : Controlpkt} (h : s.control? id = some c) : c ∈ s.contrlpkts ∧ c.id = id :=
  ⟨List.mem_of_find?_eq_some h, by simpa using List.find?_some h⟩

/-- A packet without an overlap is not pushed. -/
theorem pushBehind_keeps {id before : Nat} (h : s.Free id) : Keeps s (pushBehind id s before) := by
  unfold pushBehind
  split
  next updatectl Tempctl hupdate hTemp =>
    split
    · obtain ⟨hmem, hid⟩ := control?_some hupdate
      refine Keeps.trans (keeps_map ?_) (update_datapkt_keeps ?_)
      · intro c hc
        split <;> exact ⟨rfl, rfl⟩
      · intro r hr hhits
        exact h updatectl hmem hid r hr hhits
    · exact Keeps.refl s
  next => exact Keeps.refl s

/-- Packets without an overlap are not pushed. -/
theorem pushBehind_foldl_keeps {id : Nat} (seg : List Nat) (h : s.Free id) :
    Keeps s (seg.foldl (pushBehind id) s) := by
  induction seg generalizing s with
  | nil => exact Keeps.refl s
  | cons before seg ih =>
    have hk : Keeps s (pushBehind id s before) := pushBehind_keeps h
    exact hk.trans (ih (h.keeps hk))

/-- Pushing leaves what has been chosen. -/
theorem pushBehind_foldl_updatectl (id : Nat) (seg : List Nat) (s : Obsw) :
    (seg.foldl (pushBehind id) s).updatectl = s.updatectl := by
  induction seg generalizing s with
  | nil => rfl
  | cons before seg ih =>
    rw [List.foldl_cons, ih]
    unfold pushBehind
    split
    · split <;> rfl
    · rfl

/-- The search finds a packet of the list. -/
theorem search_foldl {better : Nat → Nat → Prop} [DecidableRel better] (cs : List Controlpkt)
    (found : Option Nat × Nat) (id : Nat) (h : (cs.foldl (search better) found).1 = some id) :
    (∃ c ∈ cs, c.id = id) ∨ found.1 = some id := by
  induction cs generalizing found with
  | nil => exact Or.inr h
  | cons c cs ih =>
    rcases ih _ h with ⟨d, hd, hid⟩ | hfound
    · exact Or.inl ⟨d, List.mem_cons_of_mem _ hd, hid⟩
    · unfold search at hfound
      split at hfound
      · exact Or.inl ⟨c, List.mem_cons_self, Option.some.inj hfound⟩
      · exact Or.inr hfound

/-- A candidate is one of the control packets of the tick, or the one that was chosen last. -/
theorem candidate_mem {seg : List Nat} {number random bound id : Nat}
    (h : (s.candidate seg number random bound).1 = some id) : id ∈ seg ∨ s.updatectl = some id := by
  have hsearch : ∀ {better : Nat → Nat → Prop} [DecidableRel better],
      ((seg.filterMap s.control?).foldl (search better) (s.updatectl, bound)).1 = some id →
        id ∈ seg ∨ s.updatectl = some id := by
    intro better _ hfold
    rcases search_foldl _ _ _ hfold with ⟨c, hc, hid⟩ | hlast
    · obtain ⟨id', hid', hcontrol⟩ := List.mem_filterMap.1 hc
      left
      rwa [← hid, (control?_some hcontrol).2]
    · exact Or.inr hlast
  unfold candidate at h
  cases hmethod : s.select_candidate_method with
  | random =>
    simp only [hmethod] at h
    exact Or.inl (List.mem_of_getElem? h)
  | minimumOffset =>
    simp only [hmethod] at h
    exact hsearch h
  | maximumOffset =>
    simp only [hmethod] at h
    exact hsearch h

/-- The routine leaves the reservations alone when no control packet that it may choose has the key of
    one. -/
theorem update_record_keeps {seg : List Nat} {number : Nat} (count bound : Nat) (random : List Nat)
    (h : ∀ id, id ∈ seg ∨ s.updatectl = some id → s.Free id)
    (ht : update_record_of_control_pkt seg number count bound random s = .ok s') : Keeps s s' := by
  induction count generalizing s bound random with
  | zero =>
    obtain rfl : s = s' := Except.ok.inj ht
    exact Keeps.refl s
  | succ count ih =>
    unfold update_record_of_control_pkt at ht
    cases hchosen : (s.candidate seg number (random.headD 0) bound).1.bind s.control? with
    | none =>
      simp only [hchosen] at ht
      cases ht
    | some updatectl =>
      simp only [hchosen] at ht
      obtain ⟨id, hid, hcontrol⟩ := Option.bind_eq_some_iff.1 hchosen
      obtain ⟨-, rfl⟩ := control?_some hcontrol
      have hfree := h _ (candidate_mem hid)
      have hset : Keeps s { s with updatectl := (s.candidate seg number (random.headD 0) bound).1 } :=
        ⟨rfl, rfl⟩
      have hfold := pushBehind_foldl_keeps seg (hfree.keeps hset)
      have hmark : ∀ t : Obsw, Keeps t { t with
          contrlpkts := t.contrlpkts.map fun c => if c.id = updatectl.id then { c with update := true } else c } := by
        intro t
        refine keeps_map ?_
        intro c hc
        split <;> exact ⟨rfl, rfl⟩
      have hk := (hset.trans hfold).trans (hmark _)
      refine hk.trans (ih _ _ ?_ ht)
      intro id' hid'
      rcases hid' with hid' | hid'
      · exact (h id' (Or.inl hid')).keeps hk
      · have hlast : (s.candidate seg number (random.headD 0) bound).1 = some id' :=
          (pushBehind_foldl_updatectl updatectl.id seg _).symm.trans hid'
        exact (h id' (candidate_mem hlast)).keeps hk

/-- A contention that touches no reservation. -/
theorem deal_keeps {b : Burst} {random : List Nat} (h : s.Untouched b)
    (ht : s.deal_control_pkt_with_same_arrive_time b random = .ok s') : s'.datapkts = s.datapkts := by
  unfold deal_control_pkt_with_same_arrive_time at ht
  by_cases htick : s.found_arrive_time b = 0
  · simp only [if_pos htick] at ht
    rw [← Except.ok.inj ht]
  · by_cases hone : s.number_of_same_arrive_time b = 1
    · simp only [if_neg htick, if_pos hone] at ht
      rw [← Except.ok.inj ht]
    · simp only [if_neg htick, if_neg hone] at ht
      have hmark : Keeps s { s with
          contrlpkts := s.contrlpkts.map fun c =>
            if SameTick (s.found_arrive_time b) c then { c with have_found := true } else c } := by
        refine keeps_map ?_
        intro c hc
        split <;> exact ⟨rfl, rfl⟩
      refine (hmark.trans (update_record_keeps _ _ _ ?_ ht)).datapkts
      intro id hid
      have hfree : s.Free id := by
        rintro c hc rfl
        exact h htick hone c hc hid
      exact hfree.keeps hmark

/-! ## Runs -/

/-- **A control packet leaves.**. -/
theorem Inv.time_to_send_pkt (h : s.Inv) {b : Burst} {random : List Nat} (hb : s.Untouched b)
    (ht : s.time_to_send_pkt b random = .ok s') : s'.Inv := by
  unfold Obsw.time_to_send_pkt at ht
  cases hdeal : s.deal_control_pkt_with_same_arrive_time b random with
  | error e =>
    rw [hdeal] at ht
    cases ht
  | ok t =>
    rw [hdeal] at ht
    have hkept := deal_keeps hb hdeal
    rw [← Except.ok.inj ht]
    exact h.congr hkept

theorem sendData_datapkts (s : Obsw) (b : Burst) : (s.sendData b).datapkts = s.datapkts := by
  unfold sendData
  dsimp only
  split <;> rfl

theorem getData_datapkts (s : Obsw) (b : Burst) : (s.getData b).datapkts = s.datapkts := by
  unfold getData
  split
  · rfl
  · exact sendData_datapkts s b

/-- **The invariant.** A clean step. -/
theorem step_inv {a : Action} (h : s.Inv) (ha : s.Clean a) (ht : s.step a = .ok s') : s'.Inv := by
  cases a with
  | control c =>
    rw [← Except.ok.inj ht]
    exact h.getControl ha
  | getData b =>
    rw [← Except.ok.inj ht]
    exact h.congr (getData_datapkts s b)
  | sendData b =>
    rw [← Except.ok.inj ht]
    exact h.congr (sendData_datapkts s b)
  | tailDrop b ControlWave d =>
    rw [← Except.ok.inj ht]
    exact (h.update_prevOL_datapkt ha).congr rfl
  | pass now =>
    rw [← Except.ok.inj ht]
    refine h.congr ?_
    split <;> rfl
  | fire i random =>
    unfold step at ht
    cases hevent : s.events[i]? with
    | none =>
      simp only [hevent] at ht
      rwa [← Except.ok.inj ht]
    | some e =>
      obtain ⟨time, event⟩ := e
      simp only [hevent] at ht
      by_cases hnow : time = s.now
      · have hleft : Inv { s with events := s.events.eraseIdx i } := h.congr rfl
        rw [if_pos hnow] at ht
        cases event with
        | time_to_send_pkt b => exact hleft.time_to_send_pkt (ha _ hevent) ht
        | Free_datapacket2 b =>
          rw [← Except.ok.inj ht]
          exact hleft.sublist (cutOut_sublist _ _)
      · rw [if_neg hnow] at ht
        rwa [← Except.ok.inj ht]

/-- Nothing is reserved. -/
theorem init_inv (drop : DropMethod) (select : SelectMethod) (processTime : Nat) :
    (init drop select processTime).Inv where
  reserved := ⟨List.Pairwise.nil, fun _ hr => absurd hr List.not_mem_nil⟩
  start_lt _ hr := absurd hr List.not_mem_nil
  end_lt _ hr := absurd hr List.not_mem_nil

/-- As long as every control packet contends with at most the record that the search finds, the
    reservations of a wavelength of a port are disjoint and within what was asked for. -/
theorem run_reserved (drop : DropMethod) (select : SelectMethod) (processTime : Nat)
    (actions : List Action) (h : Run.Along step Clean (init drop select processTime) actions) :
    Run.Always step (fun s => s.Settled → s.Reserved) (init drop select processTime) actions :=
  (Run.Always.of_along (I := Inv) (fun _ _ _ hs ha ht => step_inv hs ha ht) (init_inv _ _ _) h).mono
    fun _ hs _ => hs.reserved

/-- A burst that contends with one other loses its head, and a tail-drop control packet shortens it. -/
theorem run_reserved_contending :
    let actions : List Action :=
      [.pass 1, .control ⟨⟨1, 1, 9, 1, 0⟩, 5, 0, 10⟩, .pass 2, .control ⟨⟨2, 2, 9, 1, 0⟩, 5, 5, 20⟩,
        .fire 0 [], .tailDrop ⟨2, 2, 9, 1, 5⟩ 0 3, .pass 3, .fire 0 []]
    Run.Always step (fun s => s.Settled → s.Reserved) (init .headDrop .minimumOffset 1) actions :=
  run_reserved _ _ _ _ (by decide +kernel)

/-- The third burst overlaps the two before it, and loses only what it shares with the first. -/
theorem second_overlap_missed :
    ¬ Run.Always step (fun s => s.Settled → s.Reserved) (init .headDrop .minimumOffset 1)
      [.pass 1, .control ⟨⟨1, 1, 9, 1, 0⟩, 5, 0, 10⟩, .pass 2, .fire 0 [], .control ⟨⟨2, 2, 9, 1, 0⟩, 5, 20, 10⟩,
        .pass 3, .fire 0 [], .control ⟨⟨3, 3, 9, 1, 0⟩, 5, 5, 20⟩, .pass 4, .fire 0 []] := by
  intro h
  obtain ⟨s, hs, hfinal⟩ := h.exec_map (f := fun s => (s.events, s.datapkts.map fun r =>
    (r.nextport, r.wavelength, r.start_transmit_time, r.end_transmit_time)))
    (b := ([], [(1, 5, 1, 11), (1, 5, 22, 32), (1, 5, 11, 28)])) (by decide +kernel)
  obtain ⟨hevents, hdatapkts⟩ := Prod.mk.inj hfinal
  have hreserved := hs (by simp [Settled, hevents])
  have hdisjoint : (s.datapkts.map fun r =>
      (r.nextport, r.wavelength, r.start_transmit_time, r.end_transmit_time)).Pairwise fun x y =>
        x.1 = y.1 → x.2.1 = y.2.1 → Disjoint (Set.Ico x.2.2.1 x.2.2.2) (Set.Ico y.2.2.1 y.2.2.2) :=
    List.pairwise_map.2 hreserved.disjoint
  rw [hdatapkts] at hdisjoint
  simp [Set.Ico_disjoint_Ico] at hdisjoint

end Obsw

end Opt
