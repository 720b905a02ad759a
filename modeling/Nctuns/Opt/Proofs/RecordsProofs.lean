import Mathlib.Data.List.Nodup
import Nctuns.Opt.Proofs.ObswProofs

/-!
# The records of control packets

Control packets are recorded in the order of their ticks and found a tick at a time, so those of a tick
that are not found are next to one another.
-/

namespace Opt

/-! ## Lists -/

/-- Where the elements to be dropped are at the end, dropping them there is dropping them everywhere. -/
theorem rdropWhile_eq_filter {α : Type*} {p : α → Bool} (xs : List α)
    (h : xs.Pairwise fun x y => p y = true → p x = true) :
    xs.rdropWhile (fun x => !p x) = xs.filter p := by
  induction xs using List.reverseRecOn with
  | nil => rfl
  | append_singleton xs x ih =>
    rw [List.pairwise_append] at h
    by_cases hx : p x = true
    · have hall : ∀ y ∈ xs, p y = true := fun y hy => h.2.2 y hy x List.mem_cons_self hx
      rw [List.rdropWhile_concat_neg _ _ _ (by simp [hx]), List.filter_append, List.filter_eq_self.2 hall,
        List.filter_cons_of_pos hx, List.filter_nil]
    · rw [List.rdropWhile_concat_pos _ _ _ (by simpa using hx), ih h.1, List.filter_append,
        List.filter_cons_of_neg hx, List.filter_nil, List.append_nil]

/-- What is left after both ends have been cut off, when there is no gap. -/
theorem trim_eq_filter {α : Type*} {p : α → Bool} (xs : List α)
    (h : ∀ x y z, [x, y, z].Sublist xs → p x = true → p z = true → p y = true) :
    (xs.dropWhile fun x => !p x).rdropWhile (fun x => !p x) = xs.filter p := by
  induction xs with
  | nil => rfl
  | cons x xs ih =>
    by_cases hx : p x = true
    · rw [List.dropWhile_cons_of_neg (by simp [hx]), rdropWhile_eq_filter]
      rw [List.pairwise_cons]
      refine ⟨fun _ _ _ => hx, List.pairwise_iff_forall_sublist.2 ?_⟩
      intro y z hyz hz
      exact h x y z (hyz.cons_cons x) hx hz
    · rw [List.dropWhile_cons_of_pos (by simpa using hx), List.filter_cons_of_neg hx]
      exact ih fun a b c habc => h a b c (habc.cons x)

namespace Obsw

variable {s t u : Obsw} {b : Burst} {seg : List Nat} {number : Nat}

/-! ## Records in runs -/

/-- What is known of the record of a control packet without its times. -/
structure Stamp where
  id : Nat
  arrive_time : Nat
  have_found : Bool
  update : Bool

/-- What the contention reads of a control packet. -/
def stamp (c : Controlpkt) : Stamp := ⟨c.id, c.arrive_time, c.have_found, c.update⟩

namespace Stamp

/-- The control packets of a tick are found. -/
def find (tick : Nat) (x : Stamp) : Stamp :=
  if x.have_found = false ∧ x.arrive_time = tick then { x with have_found := true } else x

/-- A control packet is dealt with. -/
def choose (id : Nat) (x : Stamp) : Stamp := if x.id = id then { x with update := true } else x

variable (tick id : Nat) (x : Stamp)

@[simp] theorem find_id : (x.find tick).id = x.id := by
  unfold find
  split <;> rfl

@[simp] theorem find_arrive_time : (x.find tick).arrive_time = x.arrive_time := by
  unfold find
  split <;> rfl

@[simp] theorem find_update : (x.find tick).update = x.update := by
  unfold find
  split <;> rfl

/-- A record is found where its tick is, or was before. -/
@[simp] theorem find_have_found : (x.find tick).have_found = true ↔ x.have_found = true ∨ x.arrive_time = tick := by
  unfold find
  by_cases hx : x.have_found = false ∧ x.arrive_time = tick
  · rw [if_pos hx]
    exact iff_of_true rfl (Or.inr hx.2)
  · rw [if_neg hx]
    refine ⟨Or.inl, fun h => h.elim (fun hfound => hfound) fun htick => ?_⟩
    by_contra hfound
    exact hx ⟨by simpa using hfound, htick⟩

@[simp] theorem choose_id : (x.choose id).id = x.id := by
  unfold choose
  split <;> rfl

@[simp] theorem choose_arrive_time : (x.choose id).arrive_time = x.arrive_time := by
  unfold choose
  split <;> rfl

@[simp] theorem choose_have_found : (x.choose id).have_found = x.have_found := by
  unfold choose
  split <;> rfl

/-- The choice marks only its own record. -/
theorem choose_update (h : x.id ≠ id) : (x.choose id).update = x.update := by
  unfold choose
  rw [if_neg h]

end Stamp

/-- Records are in the order of their ticks, and those of a tick that have been found come first. -/
structure Records (allocated now : Nat) (last : Option Nat) (stamps : List Stamp) : Prop where
  nodup : (stamps.map Stamp.id).Nodup
  order : stamps.Pairwise fun x y =>
    x.arrive_time ≤ y.arrive_time ∧ (x.arrive_time = y.arrive_time → y.have_found = true → x.have_found = true)
  each : ∀ x ∈ stamps, x.id < allocated ∧ x.arrive_time ≤ now ∧ (x.have_found = false → x.update = false)
  chosen : ∀ id, last = some id → id < allocated ∧ ∀ x ∈ stamps, x.id = id → x.have_found = true

/-- The control packets as records of their own. -/
def Recorded (s : Obsw) : Prop := Records s.allocated s.now s.updatectl (s.contrlpkts.map stamp)

namespace Records

variable {allocated now : Nat} {last : Option Nat} {stamps stamps' : List Stamp}

/-- Records that are left out leave records. -/
theorem sublist (h : Records allocated now last stamps) (hs : stamps'.Sublist stamps) :
    Records allocated now last stamps' where
  nodup := h.nodup.sublist (hs.map _)
  order := h.order.sublist hs
  each x hx := h.each x (hs.mem hx)
  chosen id hid := ⟨(h.chosen id hid).1, fun x hx => (h.chosen id hid).2 x (hs.mem hx)⟩

/-- Time passes. -/
theorem pass (h : Records allocated now last stamps) {now' : Nat} (hnow : now ≤ now') :
    Records allocated now' last stamps :=
  ⟨h.nodup, h.order, fun x hx => ⟨(h.each x hx).1, (h.each x hx).2.1.trans hnow, (h.each x hx).2.2⟩, h.chosen⟩

/-- A control packet comes in. -/
theorem append (h : Records allocated now last stamps) :
    Records (allocated + 1) now last (stamps ++ [⟨allocated, now, false, false⟩]) where
  nodup := by
    rw [List.map_append]
    refine List.nodup_append.2 ⟨h.nodup, List.nodup_singleton _, ?_⟩
    intro a ha b hb
    obtain ⟨x, hx, rfl⟩ := List.mem_map.1 ha
    obtain rfl := List.mem_singleton.1 hb
    exact Nat.ne_of_lt (h.each x hx).1
  order := by
    refine List.pairwise_append.2 ⟨h.order, List.pairwise_singleton _ _, ?_⟩
    intro x hx y hy
    obtain rfl := List.mem_singleton.1 hy
    exact ⟨(h.each x hx).2.1, fun _ hfound => by cases hfound⟩
  each x hx := by
    rcases List.mem_append.1 hx with hx | hx
    · exact ⟨Nat.lt_succ_of_lt (h.each x hx).1, (h.each x hx).2⟩
    · obtain rfl := List.mem_singleton.1 hx
      exact ⟨Nat.lt_succ_self _, Nat.le_refl _, fun _ => rfl⟩
  chosen id hid := by
    refine ⟨Nat.lt_succ_of_lt (h.chosen id hid).1, ?_⟩
    intro x hx hxid
    rcases List.mem_append.1 hx with hx | hx
    · exact (h.chosen id hid).2 x hx hxid
    · obtain rfl := List.mem_singleton.1 hx
      exact absurd hxid (Nat.ne_of_gt (h.chosen id hid).1)

/-- The records of a tick are found. -/
theorem find (h : Records allocated now last stamps) (tick : Nat) :
    Records allocated now last (stamps.map (Stamp.find tick)) where
  nodup := by
    rw [List.map_map, List.map_congr_left fun x _ => x.find_id tick]
    exact h.nodup
  order := by
    refine List.pairwise_map.2 (h.order.imp fun {x y} hxy => ?_)
    simp only [Stamp.find_arrive_time, Stamp.find_have_found]
    refine ⟨hxy.1, fun heq hy => ?_⟩
    rw [heq]
    exact hy.imp (hxy.2 heq) fun htick => htick
  each x' hx' := by
    obtain ⟨x, hx, rfl⟩ := List.mem_map.1 hx'
    obtain ⟨hid, hnow, hupdate⟩ := h.each x hx
    simp only [Stamp.find_id, Stamp.find_arrive_time, Stamp.find_update]
    refine ⟨hid, hnow, fun hfound => hupdate ?_⟩
    by_contra hold
    have hnew := (x.find_have_found tick).2 (Or.inl (by simpa using hold))
    rw [hfound] at hnew
    cases hnew
  chosen id hid := by
    refine ⟨(h.chosen id hid).1, fun x' hx' hxid => ?_⟩
    obtain ⟨x, hx, rfl⟩ := List.mem_map.1 hx'
    rw [Stamp.find_id] at hxid
    exact (x.find_have_found tick).2 (Or.inl ((h.chosen id hid).2 x hx hxid))

/-- One of the records that have been found is chosen. -/
theorem choose (h : Records allocated now last stamps) {id : Nat} (hid : id < allocated)
    (hfound : ∀ x ∈ stamps, x.id = id → x.have_found = true) :
    Records allocated now (some id) (stamps.map (Stamp.choose id)) where
  nodup := by
    rw [List.map_map, List.map_congr_left fun x _ => x.choose_id id]
    exact h.nodup
  order := by
    refine List.pairwise_map.2 (h.order.imp fun {x y} hxy => ?_)
    simpa only [Stamp.choose_arrive_time, Stamp.choose_have_found] using hxy
  each x' hx' := by
    obtain ⟨x, hx, rfl⟩ := List.mem_map.1 hx'
    obtain ⟨hlt, hnow, hupdate⟩ := h.each x hx
    simp only [Stamp.choose_id, Stamp.choose_arrive_time, Stamp.choose_have_found]
    refine ⟨hlt, hnow, fun hnot => ?_⟩
    have hne : x.id ≠ id := by
      intro hxid
      rw [hfound x hx hxid] at hnot
      cases hnot
    rw [x.choose_update id hne]
    exact hupdate hnot
  chosen id' hid' := by
    obtain rfl := Option.some.inj hid'
    refine ⟨hid, fun x' hx' hxid => ?_⟩
    obtain ⟨x, hx, rfl⟩ := List.mem_map.1 hx'
    rw [Stamp.choose_id] at hxid
    rw [Stamp.choose_have_found]
    exact hfound x hx hxid

end Records

/-! ### Steps -/

/-- A change that `g` does not see. -/
theorem modifyFirst_map {α β : Type*} {p : α → Bool} {f : α → α} {g : α → β} (hf : ∀ x, g (f x) = g x)
    (xs : List α) : (modifyFirst p f xs).map g = xs.map g := by
  induction xs with
  | nil => rfl
  | cons x xs ih =>
    unfold modifyFirst
    split
    · rw [List.map_cons, List.map_cons, hf]
    · rw [List.map_cons, List.map_cons, ih]

/-- What the records are recorded by stays. -/
structure Same (s t : Obsw) : Prop where
  allocated : t.allocated = s.allocated
  now : t.now = s.now
  updatectl : t.updatectl = s.updatectl
  stamps : t.contrlpkts.map stamp = s.contrlpkts.map stamp

theorem Same.refl (s : Obsw) : Same s s := ⟨rfl, rfl, rfl, rfl⟩

theorem Same.trans (h : Same s t) (h' : Same t u) : Same s u :=
  ⟨h'.allocated.trans h.allocated, h'.now.trans h.now, h'.updatectl.trans h.updatectl,
    h'.stamps.trans h.stamps⟩

/-- The records are those of the control packets. -/
theorem Recorded.same (h : s.Recorded) (hs : Same s t) : t.Recorded := by
  unfold Recorded
  rw [hs.allocated, hs.now, hs.updatectl, hs.stamps]
  exact h

/-- Looking for an overlap leaves the records. -/
theorem check_same (s : Obsw) (start : Nat) (NextPort WaveLength : Int) (contrlWave : Nat) :
    Same s (s.check_if_reserve_time_overlap start NextPort WaveLength contrlWave).1 := by
  unfold check_if_reserve_time_overlap
  cases s.findpkt start NextPort WaveLength with
  | none => exact ⟨rfl, rfl, rfl, rfl⟩
  | some found =>
    cases hmethod : s.drop_burst_segmentation_method with
    | dropAll => exact ⟨rfl, rfl, rfl, rfl⟩
    | headDrop => exact ⟨rfl, rfl, rfl, rfl⟩
    | tailDrop =>
      refine ⟨rfl, rfl, rfl, ?_⟩
      apply modifyFirst_map
      intro c
      rfl

/-- A reservation leaves the records. -/
theorem reserve_same (s : Obsw) (offset : Int) (duration_time : Nat) (burst_id : Int) (src dst : Nat)
    (wave NextPort : Int) (contrlWave : Nat) :
    Same s (s.reserve_duration offset duration_time burst_id src dst wave NextPort contrlWave).1 := by
  have hcheck := check_same s (u64 (s.now + offset)) NextPort wave contrlWave
  unfold reserve_duration
  dsimp only
  generalize s.check_if_reserve_time_overlap _ _ _ _ = checked at hcheck ⊢
  exact ⟨hcheck.allocated, hcheck.now, hcheck.updatectl, hcheck.stamps⟩

/-- A control packet gets a record of its own. -/
theorem getControl_recorded (h : s.Recorded) (c : Control) : (s.getControl c).Recorded := by
  have hreserve := reserve_same s c.offset c.duration_ c.burstid c.src c.dst c.DataWave c.nextport c.wavelength
  unfold getControl
  dsimp only
  generalize s.reserve_duration _ _ _ _ _ _ _ _ = reserved at hreserve ⊢
  obtain ⟨r, overlap⟩ := reserved
  have hr := h.same hreserve
  unfold Recorded at hr ⊢
  dsimp only
  rw [List.map_append]
  exact Records.append hr

/-- A packet that goes behind another one leaves the records. -/
theorem pushBehind_same (id : Nat) (s : Obsw) (before : Nat) : Same s (pushBehind id s before) := by
  unfold pushBehind
  split
  · split
    · refine ⟨rfl, rfl, rfl, ?_⟩
      show (s.contrlpkts.map _).map stamp = _
      rw [List.map_map]
      refine List.map_congr_left fun c _ => ?_
      simp only [Function.comp_apply]
      split <;> rfl
    · exact Same.refl s
  · exact Same.refl s

/-- Packets that go behind another one leave the records. -/
theorem pushBehind_foldl_same (id : Nat) (seg : List Nat) (s : Obsw) :
    Same s (seg.foldl (pushBehind id) s) := by
  induction seg generalizing s with
  | nil => exact Same.refl s
  | cons before seg ih => exact (pushBehind_same id s before).trans (ih _)

/-- What holds of the record of a control packet. -/
theorem Recorded.mem (h : s.Recorded) {c : Controlpkt} (hc : c ∈ s.contrlpkts) :
    c.id < s.allocated ∧ c.arrive_time ≤ s.now ∧ (c.have_found = false → c.update = false) :=
  Records.each h (stamp c) (List.mem_map_of_mem hc)

/-- All that may be chosen has been found. -/
theorem update_record_recorded (count bound : Nat) (random : List Nat) (h : s.Recorded)
    (hseg : ∀ id ∈ seg, ∀ c ∈ s.contrlpkts, c.id = id → c.have_found = true)
    (ht : update_record_of_control_pkt seg number count bound random s = .ok t) : t.Recorded := by
  induction count generalizing s bound random with
  | zero =>
    obtain rfl : s = t := Except.ok.inj ht
    exact h
  | succ count ih =>
    unfold update_record_of_control_pkt at ht
    cases hchosen : (s.candidate seg number (random.headD 0) bound).1.bind s.control? with
    | none =>
      simp only [hchosen] at ht
      cases ht
    | some updatectl =>
      simp only [hchosen] at ht
      obtain ⟨id, hid, hcontrol⟩ := Option.bind_eq_some_iff.1 hchosen
      obtain ⟨hmem, rfl⟩ := control?_some hcontrol
      have hfold := pushBehind_foldl_same updatectl.id seg
        { s with updatectl := (s.candidate seg number (random.headD 0) bound).1 }
      have hfound : ∀ x ∈ s.contrlpkts.map stamp, x.id = updatectl.id → x.have_found = true := by
        intro x hx hxid
        rcases candidate_mem hid with hin | hlast
        · obtain ⟨c, hc, rfl⟩ := List.mem_map.1 hx
          exact hseg _ hin c hc hxid
        · exact (Records.chosen h _ hlast).2 x hx hxid
      have hstamps : ((seg.foldl (pushBehind updatectl.id)
          { s with updatectl := (s.candidate seg number (random.headD 0) bound).1 }).contrlpkts.map fun c =>
            if c.id = updatectl.id then { c with update := true } else c).map stamp =
          (s.contrlpkts.map stamp).map (Stamp.choose updatectl.id) := by
        rw [← hfold.stamps, List.map_map, List.map_map]
        refine List.map_congr_left fun c _ => ?_
        show stamp (if c.id = updatectl.id then { c with update := true } else c) = (stamp c).choose updatectl.id
        unfold Stamp.choose
        by_cases hc : c.id = updatectl.id
        · rw [if_pos hc, if_pos (show (stamp c).id = updatectl.id from hc)]
          rfl
        · rw [if_neg hc, if_neg (show (stamp c).id ≠ updatectl.id from hc)]
      have hnext := Records.choose h (h.mem hmem).1 hfound
      refine ih _ _ ?_ ?_ ht
      · unfold Recorded
        show Records _ _ _ (List.map stamp _)
        rw [hstamps]
        dsimp only
        rw [hfold.allocated, hfold.now, hfold.updatectl]
        dsimp only
        rw [hid]
        exact hnext
      · intro id hin c hc hcid
        have hx : stamp c ∈ (s.contrlpkts.map stamp).map (Stamp.choose updatectl.id) := by
          rw [← hstamps]
          exact List.mem_map_of_mem hc
        obtain ⟨x, hx, hxc⟩ := List.mem_map.1 hx
        obtain ⟨d, hd, rfl⟩ := List.mem_map.1 hx
        have hdid : d.id = id := by
          rw [← hcid]
          exact ((stamp d).choose_id updatectl.id).symm.trans (congrArg Stamp.id hxc)
        have hdfound := hseg id hin d hd hdid
        exact (congrArg Stamp.have_found hxc).symm.trans
          (((stamp d).choose_have_found updatectl.id).trans hdfound)

/-- The record, found. -/
def found (tick : Nat) (c : Controlpkt) : Controlpkt :=
  if SameTick tick c then { c with have_found := true } else c

/-- The control packets of a tick, marked as found. -/
def marked (s : Obsw) (tick : Nat) : Obsw := { s with contrlpkts := s.contrlpkts.map (found tick) }

/-- Marking a tick is finding its records. -/
theorem marked_stamps (s : Obsw) (tick : Nat) :
    (s.marked tick).contrlpkts.map stamp = (s.contrlpkts.map stamp).map (Stamp.find tick) := by
  show (s.contrlpkts.map _).map stamp = _
  rw [List.map_map, List.map_map]
  refine List.map_congr_left fun c _ => ?_
  show stamp (if SameTick tick c then { c with have_found := true } else c) = (stamp c).find tick
  unfold Stamp.find
  by_cases hc : SameTick tick c
  · rw [if_pos hc, if_pos (show (stamp c).have_found = false ∧ (stamp c).arrive_time = tick from hc)]
    rfl
  · rw [if_neg hc, if_neg (show ¬ ((stamp c).have_found = false ∧ (stamp c).arrive_time = tick) from hc)]

/-- The records of a tick are marked. -/
theorem Recorded.marked (h : s.Recorded) (tick : Nat) : (s.marked tick).Recorded := by
  unfold Recorded
  rw [marked_stamps]
  exact Records.find h tick

/-- The contention: nothing to do, one packet alone, or a choice. -/
theorem deal_eq (s : Obsw) (b : Burst) (random : List Nat) :
    s.deal_control_pkt_with_same_arrive_time b random =
      if s.found_arrive_time b = 0 then .ok s
      else if s.number_of_same_arrive_time b = 1 then .ok (s.marked (s.found_arrive_time b))
      else update_record_of_control_pkt (segment (s.found_arrive_time b) s.contrlpkts)
        (s.number_of_same_arrive_time b) (s.number_of_same_arrive_time b)
        (match s.select_candidate_method with
          | .maximumOffset => 0
          | _ => 50000000) random (s.marked (s.found_arrive_time b)) := rfl

/-- The control packets of one tick are neighbours in the list. -/
theorem Recorded.no_gap (h : s.Recorded) (tick : Nat) (x y z : Controlpkt)
    (hxyz : [x, y, z].Sublist s.contrlpkts) (hx : SameTick tick x) (hz : SameTick tick z) : SameTick tick y := by
  have horder := (Records.order h).sublist (hxyz.map stamp)
  simp only [List.map_cons, List.map_nil, List.pairwise_cons, List.mem_cons, List.not_mem_nil,
    or_false, forall_eq_or_imp, forall_eq] at horder
  obtain ⟨⟨hxy, -⟩, hyz, -⟩ := horder
  have htick : y.arrive_time = tick := Nat.le_antisymm (hz.2 ▸ hyz.1) (hx.2 ▸ hxy.1)
  refine ⟨?_, htick⟩
  by_contra hfound
  have hxfound := hxy.2 (hx.2.trans htick.symm) (by simpa [stamp] using hfound)
  rw [show (stamp x).have_found = x.have_found from rfl, hx.1] at hxfound
  cases hxfound

/-- What is between the first and the last control packet of a tick is of this tick. -/
theorem Recorded.segment (h : s.Recorded) (tick : Nat) :
    segment tick s.contrlpkts = (s.contrlpkts.filter fun c => SameTick tick c).map Controlpkt.id := by
  have htrim := trim_eq_filter (p := fun c => decide (SameTick tick c)) s.contrlpkts fun x y z hxyz hx hz =>
    decide_eq_true (h.no_gap tick x y z hxyz (of_decide_eq_true hx) (of_decide_eq_true hz))
  unfold Obsw.segment
  simp only [decide_not]
  rw [htrim]

/-- No two control packets have the same number. -/
def Unique (s : Obsw) : Prop := (s.contrlpkts.map Controlpkt.id).Nodup

theorem Unique.eq (h : s.Unique) {c d : Controlpkt} (hc : c ∈ s.contrlpkts) (hd : d ∈ s.contrlpkts)
    (hid : c.id = d.id) : c = d := List.inj_on_of_nodup_map h hc hd hid

/-- The numbers of the control packets are distinct. -/
theorem Recorded.unique (h : s.Recorded) : s.Unique := by
  have hids := Records.nodup h
  rwa [List.map_map] at hids

/-- The contention keeps the records. -/
theorem Recorded.deal (h : s.Recorded) (b : Burst) (random : List Nat)
    (ht : s.deal_control_pkt_with_same_arrive_time b random = .ok t) : t.Recorded := by
  rw [deal_eq] at ht
  split at ht
  · rwa [← Except.ok.inj ht]
  · split at ht
    · rw [← Except.ok.inj ht]
      exact h.marked _
    · refine update_record_recorded _ _ _ (h.marked _) ?_ ht
      intro id hid c' hc' hcid
      rw [h.segment] at hid
      obtain ⟨d, hd, rfl⟩ := List.mem_map.1 hid
      obtain ⟨hd, hsame⟩ := List.mem_filter.1 hd
      obtain ⟨c, hc, rfl⟩ := List.mem_map.1 hc'
      have hcd : c.id = d.id := by
        rw [← hcid]
        unfold found
        split <;> rfl
      obtain rfl := h.unique.eq hc hd hcd
      unfold found
      rw [if_pos (of_decide_eq_true hsame)]

/-- **Step.** An action keeps the records. -/
theorem step_recorded {a : Action} (h : s.Recorded) (ht : s.step a = .ok t) : t.Recorded := by
  cases a with
  | control c =>
    rw [← Except.ok.inj ht]
    exact getControl_recorded h c
  | getData b =>
    rw [← Except.ok.inj ht]
    unfold getData sendData
    dsimp only
    split
    · exact h
    · split <;> exact h
  | sendData b =>
    rw [← Except.ok.inj ht]
    unfold sendData
    dsimp only
    split <;> exact h
  | tailDrop b ControlWave d =>
    rw [← Except.ok.inj ht]
    refine h.same ⟨rfl, rfl, rfl, ?_⟩
    apply modifyFirst_map
    intro c
    rfl
  | pass now =>
    rw [← Except.ok.inj ht]
    by_cases hnow : s.now ≤ now ∧ ∀ e ∈ s.events, now ≤ e.1
    · rw [if_pos hnow]
      exact Records.pass h hnow.1
    · rwa [if_neg hnow]
  | fire i random =>
    unfold Obsw.step at ht
    cases hevent : s.events[i]? with
    | none =>
      simp only [hevent] at ht
      rwa [← Except.ok.inj ht]
    | some e =>
      obtain ⟨time, event⟩ := e
      simp only [hevent] at ht
      by_cases hnow : time = s.now
      · have hleft : Recorded { s with events := s.events.eraseIdx i } := h
        rw [if_pos hnow] at ht
        cases event with
        | time_to_send_pkt b =>
          unfold time_to_send_pkt at ht
          cases hdeal : deal_control_pkt_with_same_arrive_time { s with events := s.events.eraseIdx i } b random with
          | error e =>
            simp only [hdeal] at ht
            cases ht
          | ok u =>
            simp only [hdeal] at ht
            rw [← Except.ok.inj ht]
            have hu := hleft.deal b random hdeal
            exact Records.sublist hu ((cutOut_sublist _ _).map _)
        | Free_datapacket2 b =>
          rw [← Except.ok.inj ht]
          exact hleft
      · rw [if_neg hnow] at ht
        rwa [← Except.ok.inj ht]

/-- There is no control packet. -/
theorem init_recorded (drop : DropMethod) (select : SelectMethod) (processTime : Nat) :
    (init drop select processTime).Recorded where
  nodup := List.nodup_nil
  order := List.Pairwise.nil
  each _ hx := absurd hx List.not_mem_nil
  chosen _ hid := by cases hid

end Obsw

end Opt
