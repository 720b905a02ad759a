import Mathlib.Algebra.Order.BigOperators.Group.List
import Mathlib.Algebra.Order.Group.Nat
import Nctuns.Dvb.TimeslotScheduler

/-!
# Proofs about the timeslot scheduler

The passes only change the record through `add_num_slot`, which moves slots from what is left of a
superframe to one of its RCSTs; the layout then puts the counts one behind the other.
-/

namespace Dvb

open Outcome SlotAssignmentRecord TimeslotScheduler

variable {V : Prop} {ncc : NccSlots} {rcst_infos : RcstInfoList} {record : SlotAssignmentRecord}
  {total : SlotType → UInt16} {r : RcstInfo}

/-- The aborts of a scheduler for which `V` holds: what it is asked for cannot be given. -/
def Stops (V : Prop) (e : SchedulerAbort) : Prop :=
  V → e = .config ∨ e = .exit ∨ e = .division

/-- Only a run that meets the conditions is known not to run out of fuel. -/
theorem not_stops_diverges (h : ¬ Stops V .diverges) : V := by
  by_contra hV
  exact h fun hv => absurd hv hV

/-! ### RCSTs -/

namespace RcstInfoList

theorem nodup (rcst_infos : RcstInfoList) :
    (rcst_infos.info_list.map RcstInfo.rcst_id).Nodup := by
  refine List.Nodup.of_map RcstId.logon_id ?_
  rw [List.map_map]
  exact rcst_infos.logon_distinct

/-- A terminal is in the list once. -/
theorem eq_of_rcst_id {a b : RcstInfo} (ha : a ∈ rcst_infos.info_list)
    (hb : b ∈ rcst_infos.info_list) (h : a.rcst_id = b.rcst_id) : a = b :=
  List.inj_on_of_nodup_map rcst_infos.nodup ha hb h

variable {α : Type} {f : RcstInfo → α} {rcst_id : RcstId} {x : α}

/-- What `lookup` finds is a field of a terminal of the list. -/
theorem mem_of_lookup (h : rcst_infos.lookup f rcst_id = some x) :
    ∃ r ∈ rcst_infos.info_list, r.rcst_id = rcst_id ∧ f r = x := by
  obtain ⟨r, hr, hx⟩ := Option.map_eq_some_iff.1 h
  exact ⟨r, List.mem_of_find?_eq_some hr, by simpa using List.find?_some hr, hx⟩

end RcstInfoList

/-! ### Sums over RCSTs -/

variable {α β : Type} [DecidableEq β]

/-- A sum does not change where the key does not occur. -/
theorem sum_add_of_notMem {l : List α} {key : α → β} {k : β} (f : α → Nat) (n : Nat)
    (h : k ∉ l.map key) :
    (l.map fun a => if key a = k then f a + n else f a).sum = (l.map f).sum := by
  congr 1
  refine List.map_congr_left fun a ha => if_neg fun hk => h ?_
  exact List.mem_map.2 ⟨a, ha, hk⟩

/-- Adding `n` for one element with a key of its own adds `n` to the sum. -/
theorem sum_add_of_mem {l : List α} {key : α → β} {k : β} (f : α → Nat) (n : Nat)
    (hnd : (l.map key).Nodup) (h : k ∈ l.map key) :
    (l.map fun a => if key a = k then f a + n else f a).sum = (l.map f).sum + n := by
  induction l with
  | nil => exact absurd h (by simp)
  | cons a l ih =>
    rw [List.map_cons, List.nodup_cons] at hnd
    rw [List.map_cons, List.sum_cons, List.map_cons, List.sum_cons]
    by_cases ha : key a = k
    · rw [if_pos ha, sum_add_of_notMem f n (ha ▸ hnd.1)]
      omega
    · rw [if_neg ha, ih hnd.2 ((List.mem_cons.1 h).resolve_left fun h' => ha h'.symm)]
      omega

/-! ### Counting slots -/

/-- The slots counted for the RCSTs of a superframe. -/
def countedIn (rcst_infos : RcstInfoList) (record : SlotAssignmentRecord) (type : SlotType)
    (superframe_id : UInt8) : Nat :=
  ((rcst_infos.info_list.filter fun r => r.superframe_id_for_transmission = superframe_id).map
    fun r => (record.num_slot_of_rcst type r.rcst_id).toNat).sum

/-- Counted slots and slots left add up, and nothing is laid out. -/
structure Balanced (rcst_infos : RcstInfoList) (total : SlotType → UInt16)
    (record : SlotAssignmentRecord) : Prop where
  total_eq : record.num_total_slot_of = total
  balance : ∀ type, ∀ superframe_id ≤ MAX_SUPERFRAME_ID,
    countedIn rcst_infos record type superframe_id +
      (record.num_residual_slot type superframe_id).toNat = (total type).toNat
  first_unused : record.first_unused_slot = fun _ => 0
  no_chunk : record.slot_chunk_list = fun _ => []

/-- No slot has been given yet. -/
theorem init_balanced (rcst_infos : RcstInfoList) (record : SlotAssignmentRecord) :
    Balanced rcst_infos record.num_total_slot_of record.init where
  total_eq := rfl
  balance type superframe_id _ := by
    have hzero : countedIn rcst_infos record.init type superframe_id = 0 := by
      refine List.sum_eq_zero fun x hx => ?_
      obtain ⟨r, -, rfl⟩ := List.mem_map.1 hx
      rfl
    rw [hzero, Nat.zero_add]
    rfl
  first_unused := rfl
  no_chunk := rfl

/-- A terminal has no more than its superframe has given. -/
theorem num_slot_le_countedIn (hr : r ∈ rcst_infos.info_list) (type : SlotType) :
    (record.num_slot_of_rcst type r.rcst_id).toNat ≤
      countedIn rcst_infos record type r.superframe_id_for_transmission :=
  List.single_le_sum (fun _ _ => Nat.zero_le _) _
    (List.mem_map.2 ⟨r, List.mem_filter.2 ⟨hr, by simp⟩, rfl⟩)

/-- The number is returned unless the superframe is out of bounds. -/
theorem get_num_residual_slot_ends {superframe_id : UInt8}
    (hV : V → superframe_id ≤ MAX_SUPERFRAME_ID) (type : SlotType) :
    Ends (Stops V) (fun n => n = record.num_residual_slot type superframe_id ∧
      superframe_id ≤ MAX_SUPERFRAME_ID) (record.get_num_residual_slot superframe_id type) := by
  refine Ends.guard (fun h hv => absurd (hV hv) (UInt8.not_le.2 h)) fun h => ?_
  exact Ends.ok ⟨rfl, UInt8.not_lt.1 h⟩

/-- **Step lemma.** Slots counted for an RCST are slots that are not left in its superframe. -/
theorem add_num_slot_ends (hb : Balanced rcst_infos total record) (hr : r ∈ rcst_infos.info_list)
    (hV : V → r.superframe_id_for_transmission ≤ MAX_SUPERFRAME_ID) (type : SlotType)
    (num_slots : UInt16) :
    Ends (Stops V) (fun a => Balanced rcst_infos total a.2 ∧
        (num_slots ≤ record.num_residual_slot type r.superframe_id_for_transmission →
          a.1 = true ∧ (a.2.num_residual_slot type r.superframe_id_for_transmission).toNat +
            num_slots.toNat =
              (record.num_residual_slot type r.superframe_id_for_transmission).toNat))
      (record.add_num_slot r.superframe_id_for_transmission r.rcst_id type num_slots) := by
  refine Ends.guard (fun h hv => absurd (hV hv) (UInt8.not_le.2 h)) fun hsid => ?_
  have hsid := UInt8.not_lt.1 hsid
  by_cases hle : num_slots ≤ record.num_residual_slot type r.superframe_id_for_transmission
  · rw [if_pos hle]
    have hle' := UInt16.le_iff_toNat_le.1 hle
    have hsub := UInt16.toNat_sub_of_le _ _ hle
    have hbal := hb.balance type _ hsid
    have hcount := @num_slot_le_countedIn rcst_infos record r hr type
    have hlt := (total type).toNat_lt
    -- the count of the RCST does not overflow
    have hadd : (record.num_slot_of_rcst type r.rcst_id + num_slots).toNat =
        (record.num_slot_of_rcst type r.rcst_id).toNat + num_slots.toNat := by
      rw [UInt16.toNat_add]
      exact Nat.mod_eq_of_lt (by omega)
    refine Ends.ok ⟨⟨hb.total_eq, fun t s hs => ?_, hb.first_unused, hb.no_chunk⟩, fun _ => ⟨rfl, ?_⟩⟩
    · have hold := hb.balance t s hs
      have hnd : ((rcst_infos.info_list.filter fun a =>
          a.superframe_id_for_transmission = s).map RcstInfo.rcst_id).Nodup :=
        (List.filter_sublist.map _).nodup rcst_infos.nodup
      by_cases ht : t = type
      · subst ht
        have hnew : countedIn rcst_infos { record with
            num_residual_slot := fun t' s' =>
              if t' = t ∧ s' = r.superframe_id_for_transmission then
                record.num_residual_slot t' s' - num_slots else record.num_residual_slot t' s'
            num_slot_of_rcst := fun t' r' =>
              if t' = t ∧ r' = r.rcst_id then record.num_slot_of_rcst t' r' + num_slots
              else record.num_slot_of_rcst t' r' } t s =
            ((rcst_infos.info_list.filter fun a => a.superframe_id_for_transmission = s).map
              fun a => if a.rcst_id = r.rcst_id then
                (record.num_slot_of_rcst t a.rcst_id).toNat + num_slots.toNat
              else (record.num_slot_of_rcst t a.rcst_id).toNat).sum := by
          refine congrArg List.sum (List.map_congr_left fun a _ => ?_)
          by_cases ha : a.rcst_id = r.rcst_id
          · rw [if_pos ha, ha, ← hadd]
            exact congrArg _ (if_pos ⟨rfl, rfl⟩)
          · rw [if_neg ha]
            exact congrArg _ (if_neg fun h => ha h.2)
        rw [hnew]
        by_cases hs' : s = r.superframe_id_for_transmission
        · subst hs'
          rw [sum_add_of_mem _ _ hnd (List.mem_map.2 ⟨r, List.mem_filter.2 ⟨hr, by simp⟩, rfl⟩)]
          show countedIn rcst_infos record t _ + _ + (if _ then _ else _ : UInt16).toNat = _
          rw [if_pos ⟨rfl, rfl⟩]
          omega
        · rw [sum_add_of_notMem _ _ fun h => ?_]
          · show countedIn rcst_infos record t _ + (if _ then _ else _ : UInt16).toNat = _
            rw [if_neg fun h => hs' h.2]
            exact hold
          · obtain ⟨a, ha, hid⟩ := List.mem_map.1 h
            obtain ⟨ha, has⟩ := List.mem_filter.1 ha
            rw [RcstInfoList.eq_of_rcst_id ha hr hid] at has
            exact hs' (by simpa using has : r.superframe_id_for_transmission = s).symm
      · -- slots of the other type
        show countedIn rcst_infos _ t s + (if t = type ∧ _ then _ else _ : UInt16).toNat = _
        rw [if_neg fun h => ht h.1, ← hold]
        congr 1
        refine congrArg List.sum (List.map_congr_left fun a _ => ?_)
        exact congrArg _ (if_neg fun h => ht h.1)
    · show (if _ then _ else _ : UInt16).toNat + _ = _
      rw [if_pos ⟨rfl, rfl⟩]
      omega
  · rw [if_neg hle]
    exact Ends.ok ⟨hb, fun h => absurd h hle⟩

/-! ### The passes -/

/-- A round of the loop over the superframes does one of them, or ends the loop. -/
theorem superframeRound_ends {σ : Type} {E : SchedulerAbort → Prop} {Q : Bool × UInt8 × σ → Prop}
    {body : UInt8 → σ → Except SchedulerAbort σ} {t : UInt8 × σ}
    (hgo : t.1.toUInt16 ≤ ncc.max_superframe_id →
      Ends E (fun s => Q (true, (t.1 + 1, s))) (body t.1 t.2))
    (hstop : ¬ t.1.toUInt16 ≤ ncc.max_superframe_id → Q (false, t)) :
    Ends E Q (if t.1.toUInt16 ≤ ncc.max_superframe_id then
      match body t.1 t.2 with
      | .error e => .error e
      | .ok s => .ok (true, (t.1 + 1, s))
    else .ok (false, t)) := by
  split
  next hle =>
    obtain ⟨s', hr, h'⟩ | ⟨e, hr, h'⟩ := (hgo hle).cases
    · rw [hr]
      exact h'
    · rw [hr]
      exact h'
  next hnot => exact Ends.ok (hstop hnot)

/-- An invariant of the body is one of the loop over the superframes. -/
theorem forSuperframes_ends {σ : Type} {I : σ → Prop} {fuel : Nat}
    {body : UInt8 → σ → Except SchedulerAbort σ} {s : σ}
    (hbody : ∀ superframe_id, (V → superframe_id ≤ MAX_SUPERFRAME_ID) → ∀ s, I s →
      Ends (Stops V) I (body superframe_id s))
    (hmax : V → ncc.max_superframe_id.toNat ≤ 254) (hfuel : V → 256 ≤ fuel) (hs : I s) :
    Ends (Stops V) I (forSuperframes ncc fuel body s) := by
  refine Ends.bind (Ends.loop (I := fun t : UInt8 × σ => I t.2) (J := fun t : UInt8 × σ => I t.2)
    (fun t => 255 - t.1.toNat)
    (fun t ht => superframeRound_ends (fun hle => ?_) fun _ => ht) hs fun hE => ?_) fun t ht => ht
  · have hid : V → t.1.toNat ≤ 254 := fun hv => le_trans (UInt16.le_iff_toNat_le.1 hle) (hmax hv)
    refine (hbody t.1 (fun hv => UInt8.le_iff_toNat_le.2 (hid hv)) t.2 ht).mono (fun _ he => he) fun s' h' => ?_
    refine ⟨h', fun hE => ?_⟩
    have h254 := hid (not_stops_diverges hE)
    show 255 - (t.1 + 1).toNat < _
    rw [UInt8.toNat_add, show (1 : UInt8).toNat = 1 from rfl, Nat.mod_eq_of_lt (by omega)]
    omega
  · have := hfuel (not_stops_diverges hE)
    show 255 - 0 < fuel
    omega

/-- The rounds that deal out slots one by one: how many are left, and how far the next RCST is that
    takes one. -/
theorem deal_lt {p : Nat → Prop} {n i left left' : Nat} (hi : i < n) (hp : ∃ j < n, p j)
    (h : left' + 1 = left ∨ left' = left ∧ ¬ p i) :
    left' * n + RoundRobin.ahead p n (RoundRobin.next n i) < left * n + RoundRobin.ahead p n i := by
  rcases h with rfl | ⟨rfl, hpi⟩
  · have := RoundRobin.ahead_lt (RoundRobin.next_lt hi) hp
    rw [Nat.succ_mul]
    omega
  · have := RoundRobin.ahead_next hi hp hpi
    omega

/-- The fuel covers a whole turn of the list for every slot that is left. -/
theorem deal_fuel {p : Nat → Prop} {n i fuel : Nat} {left : UInt16} (hi : i < n)
    (hp : ∃ j < n, p j) (hfuel : 2 ^ 16 * (n + 1) ≤ fuel) :
    left.toNat * n + RoundRobin.ahead p n i < fuel := by
  have hlt := RoundRobin.ahead_lt hi hp
  have hmul : (left.toNat + 1) * n ≤ 2 ^ 16 * n := Nat.mul_le_mul_right n left.toNat_lt
  rw [Nat.succ_mul] at hmul
  omega

/-- The positions of the RCSTs with a property. -/
def At (rcst_infos : RcstInfoList) (q : RcstInfo → Prop) (i : Nat) : Prop :=
  ∃ r, rcst_infos.info_list[i]? = some r ∧ q r

/-- A terminal of the list has a place in it. -/
theorem exists_at {q : RcstInfo → Prop} (hr : r ∈ rcst_infos.info_list) (hq : q r) :
    ∃ j < rcst_infos.info_list.length, At rcst_infos q j := by
  obtain ⟨j, hj, hjr⟩ := List.getElem_of_mem hr
  exact ⟨j, hj, r, by rw [List.getElem?_eq_getElem hj, hjr], hq⟩

/-- Where something has been counted there is a terminal. -/
theorem exists_mem_of_countP {p : RcstInfo → Bool} (h : ¬ rcst_infos.info_list.countP p = 0) :
    ∃ r ∈ rcst_infos.info_list, p r := by
  have hpos := Nat.pos_of_ne_zero h
  exact List.countP_pos_iff.1 hpos

/-- A balanced record and an iterator in the list. -/
def Dealing (V : Prop) (rcst_infos : RcstInfoList) (total : SlotType → UInt16)
    (s : SlotAssignmentRecord × Nat) : Prop :=
  Balanced rcst_infos total s.1 ∧ (V → s.2 < rcst_infos.info_list.length)

/-- What gets smaller in each round that deals out slots to the RCSTs with `q`. -/
noncomputable def dealMeasure (rcst_infos : RcstInfoList) (type : SlotType) (superframe_id : UInt8)
    (q : RcstInfo → Prop) (s : SlotAssignmentRecord × Nat) : Nat :=
  (s.1.num_residual_slot type superframe_id).toNat * rcst_infos.info_list.length +
    RoundRobin.ahead (At rcst_infos q) rcst_infos.info_list.length s.2

/-- One round of the requests: the balance is kept, and the measure falls while the loop goes on. -/
theorem reqRound_ends {superframe_id : UInt8} (hV : V → superframe_id ≤ MAX_SUPERFRAME_ID)
    (hex : ∃ r ∈ rcst_infos.info_list, r.superframe_id_for_transmission = superframe_id)
    (s : SlotAssignmentRecord × Nat) (hs : Dealing V rcst_infos total s) :
    Ends (Stops V) (fun t => if t.1 then Dealing V rcst_infos total t.2 ∧
        (¬ Stops V .diverges →
          dealMeasure rcst_infos .SLOT_TYPE_REQUEST superframe_id
            (fun r => r.superframe_id_for_transmission = superframe_id) t.2 <
          dealMeasure rcst_infos .SLOT_TYPE_REQUEST superframe_id
            (fun r => r.superframe_id_for_transmission = superframe_id) s)
      else Dealing V rcst_infos total t.2)
      (reqRound rcst_infos superframe_id s) := by
  obtain ⟨hb, hit⟩ := hs
  obtain ⟨a, ha, haid⟩ := hex
  have hat := exists_at (q := fun r => r.superframe_id_for_transmission = superframe_id) ha haid
  have hnext : V → RoundRobin.next rcst_infos.info_list.length s.2 < rcst_infos.info_list.length :=
    fun hv => RoundRobin.next_lt (hit hv)
  refine (get_num_residual_slot_ends hV .SLOT_TYPE_REQUEST).bind fun residual hres => ?_
  obtain ⟨rfl, hsid⟩ := hres
  split
  next hpos =>
    split
    next hnone => exact fun hv => absurd (List.getElem?_eq_none_iff.1 hnone) (Nat.not_le.2 (hit hv))
    next r hsome =>
      have hr : r ∈ rcst_infos.info_list := List.mem_of_getElem? hsome
      dsimp only
      split
      next hrid =>
        subst hrid
        split
        · exact Ends.ok ⟨hb, hnext⟩
        · refine (add_num_slot_ends hb hr hV .SLOT_TYPE_REQUEST 1).bind fun added hadd => ?_
          have hone : (1 : UInt16) ≤ s.1.num_residual_slot .SLOT_TYPE_REQUEST
              r.superframe_id_for_transmission := by
            have := UInt16.lt_iff_toNat_lt.1 hpos
            exact UInt16.le_iff_toNat_le.2 this
          obtain ⟨htrue, hleft⟩ := hadd.2 hone
          rw [if_neg (by simp [htrue])]
          exact Ends.ok ⟨⟨hadd.1, hnext⟩, fun hE =>
            deal_lt (hit (not_stops_diverges hE)) hat (.inl hleft)⟩
      next hrid =>
        refine Ends.ok ⟨⟨hb, hnext⟩, fun hE => deal_lt (hit (not_stops_diverges hE)) hat
          (.inr ⟨rfl, ?_⟩)⟩
        rintro ⟨r', hr', hid⟩
        obtain rfl : r = r' := Option.some.inj (hsome.symm.trans hr')
        exact hrid hid.symm
  next => exact Ends.ok ⟨hb, hit⟩

/-- Iterators in the list. -/
def InList (V : Prop) (rcst_infos : RcstInfoList) (it : UInt8 → Nat) : Prop :=
  V → rcst_infos.info_list ≠ [] → ∀ superframe_id, it superframe_id < rcst_infos.info_list.length

/-- A superframe gets a new place in the list. -/
theorem InList.update {it : UInt8 → Nat} {i : Nat} {superframe_id : UInt8}
    (h : InList V rcst_infos it) (hi : V → i < rcst_infos.info_list.length) :
    InList V rcst_infos (Function.update it superframe_id i) := by
  intro hv hne s
  rw [Function.update_apply]
  split
  · exact hi hv
  · exact h hv hne s

/-- The slots for requests are dealt out, and the balance is kept. -/
theorem scheduling_for_req_ends {fuel : Nat} {it : UInt8 → Nat}
    (hmax : V → ncc.max_superframe_id.toNat ≤ 254)
    (hfuel : V → 2 ^ 16 * (rcst_infos.info_list.length + 1) ≤ fuel)
    (hb : Balanced rcst_infos total record) (hit : InList V rcst_infos it) :
    Ends (Stops V) (fun t => Balanced rcst_infos total t.1 ∧ InList V rcst_infos t.2)
      (scheduling_for_req ncc rcst_infos fuel (record, it)) := by
  refine forSuperframes_ends (I := fun t : SlotAssignmentRecord × (UInt8 → Nat) =>
      Balanced rcst_infos total t.1 ∧ InList V rcst_infos t.2)
    (fun superframe_id hV s hs => ?_) hmax (fun hv => by have := hfuel hv; omega) ⟨hb, hit⟩
  split
  · exact hs
  next hno =>
    obtain ⟨r, hr, hrid⟩ := exists_mem_of_countP hno
    have hex : ∃ r ∈ rcst_infos.info_list, r.superframe_id_for_transmission = superframe_id :=
      ⟨r, hr, by simpa using hrid⟩
    have hne : rcst_infos.info_list ≠ [] := List.ne_nil_of_mem hr
    have hi : V → s.2 superframe_id < rcst_infos.info_list.length :=
      fun hv => hs.2 hv hne superframe_id
    have hloop := Ends.loop (n := fuel) _ (reqRound_ends hV hex)
      (s := (s.1, s.2 superframe_id)) ⟨hs.1, hi⟩ fun hE => ?_
    refine hloop.bind fun t ht => ?_
    · exact Ends.ok ⟨ht.1, hs.2.update ht.2⟩
    · have hv := not_stops_diverges hE
      obtain ⟨a, ha, haid⟩ := hex
      exact deal_fuel (hi hv) (exists_at ha haid) (hfuel hv)

/-- The constant rates keep the balance. -/
theorem scheduling_for_rt_ends
    (hV : V → ∀ r ∈ rcst_infos.info_list, r.superframe_id_for_transmission ≤ MAX_SUPERFRAME_ID)
    (hb : Balanced rcst_infos total record) :
    Ends (Stops V) (Balanced rcst_infos total) (scheduling_for_rt ncc rcst_infos record) := by
  refine Ends.foldlM (fun r hr record hb => ?_) hb
  refine (get_num_residual_slot_ends (fun hv => hV hv r hr) .SLOT_TYPE_DATA).bind fun _ _ => ?_
  split
  · exact (add_num_slot_ends hb hr (fun hv => hV hv r hr) .SLOT_TYPE_DATA _).bind fun _ h => h.1
  · exact fun _ => .inl rfl

/-- Serving the rate credits keeps the balance. -/
theorem serveRbdc_ends (credits : RcstCredit)
    (hV : V → ∀ r ∈ rcst_infos.info_list, r.superframe_id_for_transmission ≤ MAX_SUPERFRAME_ID)
    (hb : Balanced rcst_infos total record) :
    Ends (Stops V) (fun t => Balanced rcst_infos total t.2)
      (serveRbdc ncc rcst_infos credits record) := by
  induction credits generalizing record with
  | nil => exact Ends.ok hb
  | cons e es ih =>
    unfold serveRbdc
    split
    · split
      · exact fun _ => .inl rfl
      next superframe_id hid =>
        obtain ⟨r, hr, hrid, rfl⟩ := RcstInfoList.mem_of_lookup hid
        rw [← hrid]
        refine (add_num_slot_ends hb hr (fun hv => hV hv r hr) .SLOT_TYPE_DATA _).bind fun added ha => ?_
        exact Ends.guard (fun _ _ => .inl rfl) fun _ => (ih ha.1).bind fun _ h => h
    · exact (ih hb).bind fun _ h => h

/-- Recording a rate request ends. -/
theorem recordRbdc_ends (credits : RcstCredit) (request : RcstCapacityRequest) :
    Ends (Stops V) (fun _ => True) (recordRbdc ncc rcst_infos credits request) := by
  unfold recordRbdc
  dsimp only
  split
  · trivial
  split
  · trivial
  · exact fun _ => .inl rfl

/-- The rate requests keep the balance. -/
theorem scheduling_for_rbdc_ends (requests : List RcstCapacityRequest) (credits : RcstCredit)
    (hV : V → ∀ r ∈ rcst_infos.info_list, r.superframe_id_for_transmission ≤ MAX_SUPERFRAME_ID)
    (hb : Balanced rcst_infos total record) :
    Ends (Stops V) (fun t => Balanced rcst_infos total t.2)
      (scheduling_for_rbdc ncc rcst_infos requests (credits, record)) :=
  (Ends.foldlM (fun _ _ _ _ => recordRbdc_ends ..) trivial).bind fun _ _ => serveRbdc_ends _ hV hb

/-- A need that an RCST of the list has. -/
def Known (rcst_infos : RcstInfoList) (need : SlotNeed) : Prop :=
  need.num_slots_needed ≠ 0 ∧ ∃ r ∈ rcst_infos.info_list, r.rcst_id = need.rcst_id ∧
    r.superframe_id_for_transmission = need.superframe_id

/-- A credit gives rise to needs of terminals that are known. -/
theorem slotNeed_ends (e : CreditEntry) :
    Ends (Stops V) (fun needs => ∀ need ∈ needs, Known rcst_infos need)
      (slotNeed ncc rcst_infos e) := by
  unfold slotNeed
  split
  · split
    · exact fun _ => .inr (.inl rfl)
    · dsimp only
      split
      · exact fun _ => .inl rfl
      next superframe_id hid =>
        obtain ⟨r, hr, hrid, hsid⟩ := RcstInfoList.mem_of_lookup hid
        generalize (if (e.value / _).toUInt16 > _ then _ else _ : UInt16) = num_slots_needed
        refine Ends.ok fun need hneed => ?_
        by_cases hpos : num_slots_needed > 0
        · rw [if_pos hpos] at hneed
          rw [List.mem_singleton.1 hneed]
          refine ⟨fun h0 => ?_, r, hr, hrid, hsid⟩
          rw [show num_slots_needed = 0 from h0] at hpos
          exact absurd hpos (UInt16.lt_irrefl 0)
        · rw [if_neg hpos] at hneed
          exact absurd hneed List.not_mem_nil
  · exact Ends.ok fun need hneed => absurd hneed List.not_mem_nil

/-- All needs are of terminals that are known. -/
theorem mapM_slotNeed_ends (credits : RcstCredit) :
    Ends (Stops V) (fun needs => ∀ need ∈ needs.flatten, Known rcst_infos need)
      (credits.mapM (slotNeed ncc rcst_infos)) := by
  induction credits with
  | nil => exact Ends.ok (by simp)
  | cons e es ih =>
    rw [List.mapM_cons]
    refine (slotNeed_ends e).bind fun needs hneeds => ih.bind fun rest hrest => ?_
    refine Ends.ok fun need hneed => ?_
    rw [List.flatten_cons, List.mem_append] at hneed
    exact hneed.elim (hneeds need) (hrest need)

/-- How many needs there are in a superframe. -/
def needsIn (superframe_id : UInt8) (needs : List SlotNeed) : Nat :=
  needs.countP fun need => need.superframe_id = superframe_id

/-- Needs are counted list by list. -/
theorem needsIn_append (superframe_id : UInt8) (l m : List SlotNeed) :
    needsIn superframe_id (l ++ m) = needsIn superframe_id l + needsIn superframe_id m :=
  List.countP_append

theorem needsIn_cons_of_eq {superframe_id : UInt8} {need : SlotNeed}
    (h : need.superframe_id = superframe_id) (l : List SlotNeed) :
    needsIn superframe_id (need :: l) = needsIn superframe_id l + 1 :=
  List.countP_cons_of_pos (by simpa using h)

theorem needsIn_cons_of_ne {superframe_id : UInt8} {need : SlotNeed}
    (h : ¬ need.superframe_id = superframe_id) (l : List SlotNeed) :
    needsIn superframe_id (need :: l) = needsIn superframe_id l :=
  List.countP_cons_of_neg (by simpa using h)

/-- A state of the dispatching with the needs `back` still to come in the round. -/
structure Dispatching (rcst_infos : RcstInfoList) (total : SlotType → UInt16) (superframe_id : UInt8)
    (back : List SlotNeed) (d : Dispatch) : Prop where
  balanced : Balanced rcst_infos total d.record
  known : ∀ need ∈ d.needs ++ back, Known rcst_infos need
  need_cnt : d.need_cnt = needsIn superframe_id (d.needs ++ back)

/-- A turn over the needs gives each of them at least `least` slots, or what it needs. -/
theorem grantRound_ends {superframe_id : UInt8} {least : Nat} (back : List SlotNeed) (d : Dispatch)
    (hV : V → superframe_id ≤ MAX_SUPERFRAME_ID) (hleast : 0 < least)
    (hd : Dispatching rcst_infos total superframe_id back d)
    (henough : least = 1 ∨ needsIn superframe_id back * least ≤ d.amount) :
    Ends (Stops V) (fun d' => Dispatching rcst_infos total superframe_id [] d' ∧
        d'.amount ≤ d.amount ∧ (0 < needsIn superframe_id back → 0 < d.amount →
          d'.amount < d.amount))
      (grantRound ncc superframe_id least back d) := by
  induction back generalizing d with
  | nil => exact Ends.ok ⟨hd, Nat.le_refl _, fun h => absurd h (Nat.lt_irrefl 0)⟩
  | cons need back ih =>
    unfold grantRound
    have hneed := hd.known need (List.mem_append_right _ List.mem_cons_self)
    -- the need goes to the front as it is
    have hkeep : Dispatching rcst_infos total superframe_id back
        { d with needs := d.needs ++ [need] } :=
      ⟨hd.balanced, by simpa using hd.known, by simpa using hd.need_cnt⟩
    by_cases hid : need.superframe_id = superframe_id
    · rw [if_pos hid]
      have hcons := needsIn_cons_of_eq hid back
      have hcnt : d.need_cnt = needsIn superframe_id d.needs + (needsIn superframe_id back + 1) := by
        rw [hd.need_cnt, needsIn_append, hcons]
      by_cases hstop : d.amount = 0 ∨ d.need_cnt = 0
      · rw [if_pos hstop]
        refine Ends.ok ⟨⟨hd.balanced, by simpa using hd.known, by simpa using hd.need_cnt⟩,
          Nat.le_refl _, fun _ hpos => ?_⟩
        rcases hstop with h0 | h0 <;> omega
      rw [if_neg hstop, if_neg hneed.1]
      have hne := hneed.1
      obtain ⟨-, r, hr, hrid, hrsid⟩ := hneed
      rw [not_or] at hstop
      have hpos : 0 < need.num_slots_needed.toNat :=
        Nat.pos_of_ne_zero fun h0 => hne (UInt16.toNat_inj.1 h0)
      have hleastle : least ≤ d.amount := by
        rcases henough with h1 | hmul
        · omega
        · rw [hcons, Nat.succ_mul] at hmul
          omega
      dsimp only
      generalize hg : (if need.num_slots_needed.toNat > least then least
        else need.num_slots_needed.toNat) = grant
      have hgrant : 0 < grant ∧ grant ≤ need.num_slots_needed.toNat ∧ grant ≤ least := by
        rw [← hg]
        split <;> omega
      obtain ⟨hgpos, hgneed, hgleast⟩ := hgrant
      have hstep := add_num_slot_ends hd.balanced hr
        (fun hv => by rw [hrsid, hid]; exact hV hv) .SLOT_TYPE_DATA (.ofNat grant)
      rw [hrsid, hid, hrid] at hstep
      refine hstep.bind fun added hadd => ?_
      refine Ends.guard (fun h => absurd (Nat.le_trans hgleast hleastle) h) fun _ => ?_
      have hgnat : (UInt16.ofNat grant).toNat = grant := UInt16.toNat_ofNat_of_lt' (by
        have := need.num_slots_needed.toNat_lt
        show grant < 2 ^ 16
        omega)
      have hleft : (need.num_slots_needed - UInt16.ofNat grant).toNat =
          need.num_slots_needed.toNat - grant := by
        rw [UInt16.toNat_sub_of_le _ _ (by rw [UInt16.le_iff_toNat_le, hgnat]; exact hgneed), hgnat]
      have hnext : Dispatching rcst_infos total superframe_id back
          { needs := if need.num_slots_needed - .ofNat grant = 0 then d.needs
              else d.needs ++ [{ need with num_slots_needed := need.num_slots_needed - .ofNat grant }]
            record := added.2
            credits := d.credits.decrease_credit_value need.rcst_id .VB_CREDIT
              (UInt32.ofNat grant * ncc.num_of_atm_per_slot.toUInt32).toUInt64
            amount := d.amount - grant
            need_cnt := if need.num_slots_needed - .ofNat grant = 0 then d.need_cnt - 1
              else d.need_cnt } := by
        by_cases h0 : need.num_slots_needed - .ofNat grant = 0
        · simp only [if_pos h0]
          refine ⟨hadd.1, fun x hx => hd.known x ?_, ?_⟩
          · rw [List.mem_append] at hx ⊢
            exact hx.imp_right (List.mem_cons_of_mem _)
          · show d.need_cnt - 1 = needsIn superframe_id (d.needs ++ back)
            rw [hcnt, needsIn_append]
            rfl
        · simp only [if_neg h0]
          refine ⟨hadd.1, fun x hx => ?_, ?_⟩
          · rw [List.append_assoc, List.mem_append] at hx
            rcases hx with hx | hx
            · exact hd.known x (List.mem_append_left _ hx)
            · rcases List.mem_cons.1 hx with rfl | hx
              · exact ⟨h0, r, hr, hrid, hrsid⟩
              · exact hd.known x (List.mem_append_right _ (List.mem_cons_of_mem _ hx))
          · show d.need_cnt = needsIn superframe_id ((d.needs ++ [_]) ++ back)
            rw [hcnt, List.append_assoc, needsIn_append, List.singleton_append,
              needsIn_cons_of_eq (by exact hid)]
      refine (ih _ hnext ?_).mono (fun _ h => h) fun d' hd' => ?_
      · refine henough.imp_right fun hmul => ?_
        rw [hcons, Nat.succ_mul] at hmul
        show _ ≤ d.amount - grant
        omega
      · have hle : d'.amount ≤ d.amount - grant := hd'.2.1
        exact ⟨hd'.1, by omega, fun _ _ => by omega⟩
    · rw [if_neg hid]
      rw [needsIn_cons_of_ne hid] at henough ⊢
      exact ih _ hkeep henough

/-- The balance between rounds of the dispatching. -/
def Served (rcst_infos : RcstInfoList) (total : SlotType → UInt16)
    (s : List SlotNeed × RcstCredit × SlotAssignmentRecord) : Prop :=
  Balanced rcst_infos total s.2.2 ∧ ∀ need ∈ s.1, Known rcst_infos need

/-- A round of the dispatch lowers what is left. -/
theorem dispatchRound_ends {superframe_id : UInt8} (hV : V → superframe_id ≤ MAX_SUPERFRAME_ID)
    (d : Dispatch) (hd : Dispatching rcst_infos total superframe_id [] d) :
    Ends (Stops V) (fun t => if t.1 then Dispatching rcst_infos total superframe_id [] t.2 ∧
        (¬ Stops V .diverges → t.2.amount < d.amount)
      else Dispatching rcst_infos total superframe_id [] t.2)
      (dispatchRound ncc superframe_id d) := by
  unfold dispatchRound
  split
  next hpos =>
    have hcnt : d.need_cnt = needsIn superframe_id d.needs := by
      rw [hd.need_cnt, List.append_nil]
    have hstart : Dispatching rcst_infos total superframe_id d.needs { d with needs := [] } :=
      ⟨hd.balanced, by simpa using hd.known, by simpa using hcnt⟩
    dsimp only
    generalize hl : (if d.amount / d.need_cnt = 0 then 1 else d.amount / d.need_cnt) = least
    have hleast : 0 < least ∧ (least = 1 ∨ needsIn superframe_id d.needs * least ≤ d.amount) := by
      rw [← hl]
      split
      · exact ⟨Nat.one_pos, .inl rfl⟩
      next h0 => exact ⟨Nat.pos_of_ne_zero h0, .inr (by rw [← hcnt]; exact Nat.mul_div_le _ _)⟩
    refine (grantRound_ends d.needs { d with needs := [] } hV hleast.1 hstart hleast.2).bind
      fun d' hd' => ?_
    exact Ends.ok ⟨hd'.1, fun _ => hd'.2.2 (hcnt ▸ hpos.1) hpos.2⟩
  next => exact Ends.ok hd

/-- The volume credits of a superframe are served. -/
theorem dispatch_ends {fuel : Nat} {superframe_id : UInt8}
    (hV : V → superframe_id ≤ MAX_SUPERFRAME_ID) (hfuel : V → 2 ^ 16 ≤ fuel)
    (s : List SlotNeed × RcstCredit × SlotAssignmentRecord) (hs : Served rcst_infos total s) :
    Ends (Stops V) (Served rcst_infos total) (dispatch ncc rcst_infos fuel superframe_id s) := by
  unfold dispatch
  split
  · exact hs
  refine (get_num_residual_slot_ends hV .SLOT_TYPE_DATA).bind fun amount _ => ?_
  have hstart : Dispatching rcst_infos total superframe_id []
      { needs := s.1, record := s.2.2, credits := s.2.1, amount := amount.toNat
        need_cnt := s.1.countP fun need => need.superframe_id = superframe_id } :=
    ⟨hs.1, by simpa using hs.2, by rw [List.append_nil]; rfl⟩
  refine (Ends.loop Dispatch.amount (dispatchRound_ends hV) hstart fun hE => ?_).bind fun d hd => ?_
  · exact Nat.lt_of_lt_of_le amount.toNat_lt (hfuel (not_stops_diverges hE))
  · exact Ends.ok ⟨hd.balanced, by simpa using hd.known⟩

/-- The volume requests keep the balance. -/
theorem scheduling_for_vbdc_and_avbdc_ends {fuel : Nat} (heap : HeapOfCapacityRequest)
    (credits : RcstCredit) (hmax : V → ncc.max_superframe_id.toNat ≤ 254)
    (hfuel : V → 2 ^ 16 ≤ fuel) (hb : Balanced rcst_infos total record) :
    Ends (Stops V) (fun t => Balanced rcst_infos total t.2)
      (scheduling_for_vbdc_and_avbdc ncc rcst_infos fuel heap (credits, record)) := by
  refine Ends.guard (fun _ _ => .inr (.inr rfl)) fun _ => ?_
  refine (mapM_slotNeed_ends _).bind fun needs hneeds => ?_
  refine Ends.bind (P := Served rcst_infos total) ?_ fun t ht => ht.1
  exact forSuperframes_ends (fun superframe_id hV s hs => dispatch_ends hV hfuel s hs) hmax
    (fun hv => le_trans (by decide) (hfuel hv)) ⟨hb, hneeds⟩

/-- The share of a terminal keeps the balance. -/
theorem fcaShare_ends {superframe_id : UInt8} (hV : V → superframe_id ≤ MAX_SUPERFRAME_ID)
    (num_slots : UInt16) (hr : r ∈ rcst_infos.info_list) (s : RcstCredit × SlotAssignmentRecord)
    (hb : Balanced rcst_infos total s.2) :
    Ends (Stops V) (fun t => Balanced rcst_infos total t.2)
      (fcaShare ncc superframe_id num_slots s r) := by
  unfold fcaShare
  split
  next hact =>
    obtain ⟨rfl, -⟩ := of_decide_eq_true hact
    exact (add_num_slot_ends hb hr hV .SLOT_TYPE_DATA num_slots).bind fun _ h => h.1
  next => exact hb

/-- One slot for the next active terminal: the balance is kept, and the measure falls. -/
theorem fcaRound_ends {superframe_id : UInt8} (hV : V → superframe_id ≤ MAX_SUPERFRAME_ID)
    (hex : ∃ r ∈ rcst_infos.info_list, RcstInfoList.active superframe_id r)
    (s : (RcstCredit × SlotAssignmentRecord) × Nat)
    (hs : Dealing V rcst_infos total (s.1.2, s.2)) :
    Ends (Stops V) (fun t => if t.1 then Dealing V rcst_infos total (t.2.1.2, t.2.2) ∧
        (¬ Stops V .diverges →
          dealMeasure rcst_infos .SLOT_TYPE_DATA superframe_id
            (fun r => RcstInfoList.active superframe_id r) (t.2.1.2, t.2.2) <
          dealMeasure rcst_infos .SLOT_TYPE_DATA superframe_id
            (fun r => RcstInfoList.active superframe_id r) (s.1.2, s.2))
      else Dealing V rcst_infos total (t.2.1.2, t.2.2))
      (fcaRound rcst_infos superframe_id s) := by
  obtain ⟨hb, hit⟩ := hs
  obtain ⟨a, ha, haid⟩ := hex
  have hat := exists_at (q := fun r => RcstInfoList.active superframe_id r) ha haid
  have hnext : V → RoundRobin.next rcst_infos.info_list.length s.2 < rcst_infos.info_list.length :=
    fun hv => RoundRobin.next_lt (hit hv)
  refine (get_num_residual_slot_ends hV .SLOT_TYPE_DATA).bind fun residual hres => ?_
  obtain ⟨rfl, hsid⟩ := hres
  split
  next hpos =>
    split
    next hnone => exact fun hv => absurd (List.getElem?_eq_none_iff.1 hnone) (Nat.not_le.2 (hit hv))
    next r hsome =>
      have hr : r ∈ rcst_infos.info_list := List.mem_of_getElem? hsome
      dsimp only
      split
      next hact =>
        obtain ⟨rfl, -⟩ := of_decide_eq_true hact
        refine (add_num_slot_ends hb hr hV .SLOT_TYPE_DATA 1).bind fun added hadd => ?_
        obtain ⟨-, hleft⟩ := hadd.2 (UInt16.le_iff_toNat_le.2 (UInt16.lt_iff_toNat_lt.1 hpos))
        exact Ends.ok ⟨⟨hadd.1, hnext⟩, fun hE =>
          deal_lt (hit (not_stops_diverges hE)) hat (.inl hleft)⟩
      next hact =>
        refine Ends.ok ⟨⟨hb, hnext⟩, fun hE => deal_lt (hit (not_stops_diverges hE)) hat
          (.inr ⟨rfl, ?_⟩)⟩
        rintro ⟨r', hr', hact'⟩
        obtain rfl : r = r' := Option.some.inj (hsome.symm.trans hr')
        exact hact hact'
  next => exact Ends.ok ⟨hb, hit⟩

/-- The free assignment keeps the balance. -/
theorem scheduling_for_fca_rr_ends {fuel : Nat} {it : UInt8 → Nat} (credits : RcstCredit)
    (hmax : V → ncc.max_superframe_id.toNat ≤ 254)
    (hfuel : V → 2 ^ 16 * (rcst_infos.info_list.length + 1) ≤ fuel)
    (hb : Balanced rcst_infos total record) (hit : InList V rcst_infos it) :
    Ends (Stops V) (fun t => Balanced rcst_infos total t.1.2 ∧ InList V rcst_infos t.2)
      (scheduling_for_fca_rr ncc rcst_infos fuel ((credits, record), it)) := by
  refine forSuperframes_ends (I := fun t : (RcstCredit × SlotAssignmentRecord) × (UInt8 → Nat) =>
      Balanced rcst_infos total t.1.2 ∧ InList V rcst_infos t.2)
    (fun superframe_id hV s hs => ?_) hmax (fun hv => by have := hfuel hv; omega) ⟨hb, hit⟩
  dsimp only
  split
  · exact hs
  next hno =>
    obtain ⟨r, hr, hact⟩ := exists_mem_of_countP hno
    have hi : V → s.2 superframe_id < rcst_infos.info_list.length :=
      fun hv => hs.2 hv (List.ne_nil_of_mem hr) superframe_id
    refine (get_num_residual_slot_ends hV .SLOT_TYPE_DATA).bind fun remainder_slots _ => ?_
    split
    · refine (Ends.foldlM (I := fun t : RcstCredit × SlotAssignmentRecord =>
        Balanced rcst_infos total t.2) (fun a ha t ht => fcaShare_ends hV _ ha t ht) hs.1).bind
        fun t ht => ?_
      have hloop := Ends.loop (I := fun u => Dealing V rcst_infos total (u.1.2, u.2))
        (J := fun u => Dealing V rcst_infos total (u.1.2, u.2)) (n := fuel)
        (fun u => dealMeasure rcst_infos .SLOT_TYPE_DATA superframe_id
          (fun r => RcstInfoList.active superframe_id r) (u.1.2, u.2))
        (fcaRound_ends hV ⟨r, hr, hact⟩) (s := (t, s.2 superframe_id)) ⟨ht, hi⟩ fun hE => ?_
      · exact hloop.bind fun u hu => Ends.ok ⟨hu.1, hs.2.update hu.2⟩
      · have hv := not_stops_diverges hE
        exact deal_fuel (hi hv)
          (exists_at (q := fun r => RcstInfoList.active superframe_id r) hr hact) (hfuel hv)
    · exact hs

/-- All passes one behind the other. -/
theorem passes_ends {fuel : Nat} {s : TimeslotScheduler} (hV : V → s.Fits ncc rcst_infos fuel) :
    Ends (Stops V) (fun t => Balanced rcst_infos s.slot_assignment_record.num_total_slot_of
      t.slot_assignment_record) (passes ncc rcst_infos fuel s) := by
  have hmax : V → ncc.max_superframe_id.toNat ≤ 254 := fun hv => (hV hv).max_superframe_id
  have hfuel := fun hv => (hV hv).fuel
  have hsid := fun hv => (hV hv).superframe_id
  refine (scheduling_for_req_ends hmax hfuel (init_balanced _ _)
    fun hv => (hV hv).it_rcst_info_list).bind fun req hreq => ?_
  refine (scheduling_for_rt_ends hsid hreq.1).bind fun record hrecord => ?_
  refine (scheduling_for_rbdc_ends _ _ hsid hrecord).bind fun rbdc hrbdc => ?_
  refine (scheduling_for_vbdc_and_avbdc_ends s.heap_of_capacity_request rbdc.1 hmax
    (fun hv => by have := hfuel hv; omega) hrbdc).bind fun vbdc hvbdc => ?_
  split
  · exact (scheduling_for_fca_rr_ends vbdc.1 hmax hfuel hvbdc fun hv => (hV hv).it_rr).bind
      fun fca hfca => hfca.1
  · exact hvbdc

end Dvb
