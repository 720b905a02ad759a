import Nctuns.Dvb.Proofs.DispatchProofs
import Nctuns.Lib.Keyed

/-!
# Proofs about paying for slots with volume

The needs that the dispatching starts from are covered by the credits, so what it grants is paid for.
Free capacity is dealt out in equal shares, which are paid for as well, and then in single slots.
-/

namespace Dvb

open Outcome SlotAssignmentRecord TimeslotScheduler RcstCredit

variable {ncc : NccSlots} {rcst_infos : RcstInfoList} {superframe_id : UInt8} {credits : RcstCredit}

/-- A slot is paid with its cells, down to nothing. -/
theorem payForSlot_eq (n volume : Nat) : payForSlot n volume = volume - n := by
  unfold payForSlot
  omega

/-- `k` slots are paid with `k` times the cells. -/
theorem payForSlot_iterate (n k volume : Nat) : (payForSlot n)^[k] volume = volume - k * n := by
  induction k with
  | zero => rw [Function.iterate_zero, Nat.zero_mul]; rfl
  | succ k ih => rw [Function.iterate_succ_apply', ih, payForSlot_eq, Nat.succ_mul, Nat.sub_sub]

/-! ### The needs that the credits cover -/

/-- The volume of a terminal is its entry's value. -/
theorem volume_of_mem {e : CreditEntry} (hd : Distinct credits) (he : e ∈ credits)
    (htype : e.credit_type = .VB_CREDIT) : credits.volume e.rcst_id = e.value.toNat := by
  have hentry : isEntry e.rcst_id .VB_CREDIT e = true := isEntry_iff.2 ⟨rfl, htype⟩
  have hsome : (credits.find? (isEntry e.rcst_id .VB_CREDIT)).isSome :=
    List.find?_isSome.2 ⟨e, he, hentry⟩
  obtain ⟨e', he'⟩ := Option.isSome_iff_exists.1 hsome
  have hkey := isEntry_iff.1 (List.find?_some he')
  have heq : e' = e := by
    refine List.inj_on_of_nodup_map hd (List.mem_of_find?_eq_some he') he ?_
    exact Prod.ext hkey.1 (hkey.2.trans htype.symm)
  unfold volume get_credit_value
  rw [he', heq]

/-- A need that a credit covers. -/
def CoveredBy (ncc : NccSlots) (credits : RcstCredit) (need : SlotNeed) : Prop :=
  ∃ e ∈ credits, e.credit_type = .VB_CREDIT ∧ e.rcst_id = need.rcst_id ∧
    need.demand * ncc.num_of_atm_per_slot.toNat ≤ e.value.toNat

/-- A demand in slots is covered by its volume in cells. -/
theorem demand_mul_le {value : UInt64} {n vbdc_max needed : UInt16}
    (h : needed = (value / n.toUInt64).toUInt16 ∨ needed = vbdc_max ∧
      vbdc_max < (value / n.toUInt64).toUInt16) : needed.toNat * n.toNat ≤ value.toNat := by
  have hdiv : (value / n.toUInt64).toNat = value.toNat / n.toNat := by
    rw [UInt64.toNat_div, UInt16.toNat_toUInt64]
  have htrunc : (value / n.toUInt64).toUInt16.toNat ≤ value.toNat / n.toNat := by
    rw [UInt64.toNat_toUInt16, hdiv]
    exact Nat.mod_le _ _
  have hle : needed.toNat ≤ value.toNat / n.toNat := by
    rcases h with rfl | ⟨rfl, hlt⟩
    · exact htrunc
    · exact Nat.le_trans (Nat.le_of_lt (UInt16.lt_iff_toNat_lt.1 hlt)) htrunc
  exact Nat.le_trans (Nat.mul_le_mul_right _ hle) (Nat.div_mul_le_self _ _)

/-- The need of an entry is covered by its volume. -/
theorem slotNeed_covered (e : CreditEntry) :
    Ends (fun _ => True) (fun needs => needs = [] ∨ ∃ need, needs = [need] ∧ Known rcst_infos need ∧
        e.credit_type = .VB_CREDIT ∧ e.rcst_id = need.rcst_id ∧
        need.demand * ncc.num_of_atm_per_slot.toNat ≤ e.value.toNat)
      (slotNeed ncc rcst_infos e) := by
  unfold slotNeed
  split
  next htype =>
    split
    · trivial
    next vbdc_max _ =>
      dsimp only
      split
      · trivial
      next superframe_id hid =>
        obtain ⟨r, hr, hrid, hsid⟩ := RcstInfoList.mem_of_lookup hid
        generalize hneeded : (if (e.value / ncc.num_of_atm_per_slot.toUInt64).toUInt16 > vbdc_max
          then vbdc_max else (e.value / ncc.num_of_atm_per_slot.toUInt64).toUInt16) = needed
        have hmul : needed.toNat * ncc.num_of_atm_per_slot.toNat ≤ e.value.toNat := by
          refine @demand_mul_le e.value ncc.num_of_atm_per_slot vbdc_max needed ?_
          rw [← hneeded]
          split
          next hgt => exact .inr ⟨rfl, hgt⟩
          next => exact .inl rfl
        by_cases hpos : needed > 0
        · rw [if_pos hpos]
          refine Ends.ok (.inr ⟨_, rfl, ⟨fun h0 => ?_, r, hr, hrid, hsid⟩, htype, rfl, hmul⟩)
          rw [show needed = 0 from h0] at hpos
          exact absurd hpos (UInt16.lt_irrefl 0)
        · rw [if_neg hpos]
          exact Ends.ok (.inl rfl)
  next => exact Ends.ok (.inl rfl)

/-- The needs of a list of credits, in its order. -/
theorem mapM_slotNeed_covered (credits : RcstCredit) :
    Ends (fun _ => True) (fun needs =>
        (∀ need ∈ needs.flatten, Known rcst_infos need ∧ CoveredBy ncc credits need) ∧
        ((needs.flatten.map fun need => (need.rcst_id, CreditType.VB_CREDIT)).Sublist
          (credits.map fun e => (e.rcst_id, e.credit_type))))
      (credits.mapM (slotNeed ncc rcst_infos)) := by
  induction credits with
  | nil => exact Ends.ok ⟨by simp, List.Sublist.refl _⟩
  | cons e es ih =>
    rw [List.mapM_cons]
    refine (slotNeed_covered e).bind fun needs hneeds => ih.bind fun rest hrest => ?_
    have hmore : ∀ need, CoveredBy ncc es need → CoveredBy ncc (e :: es) need := by
      rintro need ⟨e', he', h⟩
      exact ⟨e', List.mem_cons_of_mem _ he', h⟩
    refine Ends.ok ?_
    rw [List.flatten_cons]
    rcases hneeds with rfl | ⟨need, rfl, hknown, htype, hid, hle⟩
    · exact ⟨fun need hneed => ⟨(hrest.1 need hneed).1, hmore need (hrest.1 need hneed).2⟩,
        hrest.2.cons _⟩
    · constructor
      · intro x hx
        rcases List.mem_cons.1 hx with rfl | hx
        · exact ⟨hknown, e, List.mem_cons_self, htype, hid, hle⟩
        · exact ⟨(hrest.1 x hx).1, hmore x (hrest.1 x hx).2⟩
      · rw [List.singleton_append, List.map_cons, List.map_cons, hid, htype]
        exact hrest.2.cons_cons _

/-- The needs that the dispatching starts from are demands that the credits cover. -/
theorem demands_of_credits {needs : List (List SlotNeed)} (hd : Distinct credits)
    (h : credits.mapM (slotNeed ncc rcst_infos) = .ok needs) :
    ∃ demands : Demands rcst_infos, demands.needs = needs.flatten ∧ ∀ need ∈ demands.needs,
      need.demand * ncc.num_of_atm_per_slot.toNat ≤ credits.volume need.rcst_id := by
  have hends := @mapM_slotNeed_covered ncc rcst_infos credits
  rw [h] at hends
  obtain ⟨hneeds, hsub⟩ := hends
  have hnd : ((needs.flatten.map SlotNeed.rcst_id).map fun id => (id, CreditType.VB_CREDIT)).Nodup := by
    rw [List.map_map]
    exact hsub.nodup hd
  refine ⟨⟨needs.flatten, fun need hneed => (hneeds need hneed).1, hnd.of_map _⟩, rfl, ?_⟩
  intro need hneed
  obtain ⟨e, he, htype, hid, hle⟩ := (hneeds need hneed).2
  rw [← hid, volume_of_mem hd he htype]
  exact hle

/-! ### VBDC and AVBDC -/

/-- What the dispatching grants is covered and paid for. -/
theorem Dispatched.paid {demands demands' : Demands rcst_infos}
    {s : RcstCredit × SlotAssignmentRecord} {t : List SlotNeed × RcstCredit × SlotAssignmentRecord}
    {got : RcstId → Nat}
    (h : Dispatched True ncc demands s (ncc.max_superframe_id.toNat + 1) t demands' got) :
    Paid ncc s t.2 ∧ Covered ncc s t.2 := by
  have hgiven : ∀ id, s.2.givenSince t.2.2 id = got id := by
    intro id
    refine h.ledger.givenSince_eq ?_
    by_cases hex : ∃ need ∈ demands.needs, need.rcst_id = id
    · obtain ⟨need, hneed, rfl⟩ := hex
      have hask : need ∈ demands.asking need.superframe_id := mem_askingIn.2 ⟨hneed, rfl⟩
      rcases Nat.lt_or_ge need.superframe_id.toNat (ncc.max_superframe_id.toNat + 1) with hlt | hge
      · obtain ⟨q, hq⟩ := (h.settled need.superframe_id hlt).levelled
        exact Nat.lt_of_le_of_lt (hq.le_demand hask) need.num_slots_needed.toNat_lt
      · rw [(h.asking need.superframe_id hge).2.2 need hask]
        decide
    · rw [h.frame id fun need hneed heq => hex ⟨need, hneed, heq⟩]
      decide
  constructor
  · intro id
    have hvol := h.ledger.volume trivial id
    rw [payForSlot_iterate, hgiven id]
    omega
  · intro id
    have hvol := h.ledger.volume trivial id
    rw [hgiven id]
    omega

/-- The pass for volume requests pays for what it grants, and keeps the credits distinct. -/
theorem vbdc_paid {fuel : Nat} {heap : HeapOfCapacityRequest}
    {s t : RcstCredit × SlotAssignmentRecord} (hmax : ncc.max_superframe_id.toNat ≤ 254)
    (hfuel : 2 ^ 16 ≤ fuel) (hd : Distinct s.1)
    (h : scheduling_for_vbdc_and_avbdc ncc rcst_infos fuel heap s = .ok t) :
    Paid ncc (recordRequests heap s.1, s.2) t ∧ Covered ncc (recordRequests heap s.1, s.2) t ∧
      Distinct t.1 ∧ (rcst_infos.info_list = [] ∨ ncc.num_of_atm_per_slot ≠ 0) := by
  have hd' : Distinct (recordRequests heap s.1) := recordRequests_distinct hd
  simp only [scheduling_for_vbdc_and_avbdc] at h
  split at h
  · cases h
  next hdiv =>
    obtain ⟨needs, hneeds, h⟩ := of_bind_eq_ok h
    obtain ⟨r, hr, h⟩ := of_bind_eq_ok h
    obtain rfl := Except.ok.inj h
    obtain ⟨demands, heq, hcovered⟩ := demands_of_credits hd' hneeds
    have hrun := @dispatched True ncc rcst_infos fuel demands (recordRequests heap s.1, s.2) hmax hfuel
      (fun _ => hd') (fun _ => hcovered)
    have hstart : forSuperframes ncc fuel (dispatch ncc rcst_infos fuel)
        (demands.needs, recordRequests heap s.1, s.2) = .ok r := by
      rw [heq]
      exact hr
    rw [hstart] at hrun
    obtain ⟨demands', got, hdone⟩ := hrun
    obtain ⟨hpaid, hcov⟩ := hdone.paid
    refine ⟨hpaid, hcov, hdone.ledger.distinct trivial, ?_⟩
    by_contra hno
    rw [not_or, not_not] at hno
    exact hdiv hno

/-! ### Free capacity -/

/-- What the free assignment reads and writes. -/
abbrev FcaState := RcstCredit × SlotAssignmentRecord

/-- What is seen of an RCST: its volume and its data slots. -/
def account (s : FcaState) (rcst_id : RcstId) : Nat × UInt16 :=
  (s.1.volume rcst_id, s.2.get_num_slot rcst_id .SLOT_TYPE_DATA)

/-- Slots for an RCST, and cells off its volume. -/
def deal (superframe_id : UInt8) (num_slots : UInt16) (cells : UInt64 → UInt64) (s : FcaState)
    (r : RcstInfo) : FcaState :=
  (s.1.decrease_credit_value r.rcst_id .VB_CREDIT (cells (s.1.get_credit_value r.rcst_id .VB_CREDIT)),
    s.2.counted superframe_id r.rcst_id num_slots)

/-- Dealing to RCSTs with ids of their own deals once to each. -/
theorem account_deal {num_slots : UInt16} {cells : UInt64 → UInt64} {off : Nat → Nat}
    (hoff : ∀ v, (cells v).toNat = off v.toNat) (hle : ∀ v, off v ≤ v) {l : List RcstInfo}
    (hnd : (l.map RcstInfo.rcst_id).Nodup) {s : FcaState} (hd : Distinct s.1) :
    Distinct (l.foldl (deal superframe_id num_slots cells) s).1 ∧
      ∀ id, account (l.foldl (deal superframe_id num_slots cells) s) id =
        if id ∈ l.map RcstInfo.rcst_id then
          ((account s id).1 - off (account s id).1, (account s id).2 + num_slots)
        else account s id := by
  refine @Keyed.view_foldl RcstId RcstInfo _ RcstInfo.rcst_id FcaState (Nat × UInt16)
    (fun s => Distinct s.1) account (deal superframe_id num_slots cells)
    (fun a => (a.1 - off a.1, a.2 + num_slots)) (fun s r hs => ⟨hs.decrease .., fun id => ?_⟩) l hnd s hd
  have hcells : (cells (s.1.get_credit_value r.rcst_id .VB_CREDIT)).toNat ≤ s.1.volume r.rcst_id := by
    rw [hoff]
    exact hle _
  have hvol := @volume_decrease s.1 r.rcst_id id hs _ hcells
  rw [hoff] at hvol
  refine Prod.ext (hvol.trans ?_) ?_
  · by_cases hid : id = r.rcst_id
    · rw [if_pos hid, if_pos hid, hid]
      rfl
    · rw [if_neg hid, if_neg hid]
      rfl
  · by_cases hid : id = r.rcst_id
    · subst hid
      rw [if_pos rfl]
      exact @counted_num_slot s.2 superframe_id r.rcst_id num_slots
    · rw [if_neg hid]
      exact @counted_num_slot_of_ne s.2 superframe_id r.rcst_id id num_slots hid

/-- The residual of the superframe after dealing. -/
theorem residual_deal {num_slots : UInt16} {cells : UInt64 → UInt64} {l : List RcstInfo} {s : FcaState}
    (h : l.length * num_slots.toNat ≤
      (s.2.num_residual_slot .SLOT_TYPE_DATA superframe_id).toNat) :
    ((l.foldl (deal superframe_id num_slots cells) s).2.num_residual_slot .SLOT_TYPE_DATA
        superframe_id).toNat + l.length * num_slots.toNat =
      (s.2.num_residual_slot .SLOT_TYPE_DATA superframe_id).toNat ∧
    ∀ s' ≠ superframe_id,
      (l.foldl (deal superframe_id num_slots cells) s).2.num_residual_slot .SLOT_TYPE_DATA s' =
        s.2.num_residual_slot .SLOT_TYPE_DATA s' := by
  induction l generalizing s with
  | nil => exact ⟨by rw [List.length_nil, Nat.zero_mul]; rfl, fun _ _ => rfl⟩
  | cons r l ih =>
    rw [List.length_cons, Nat.succ_mul] at h ⊢
    have hone : num_slots ≤ s.2.num_residual_slot .SLOT_TYPE_DATA superframe_id :=
      UInt16.le_iff_toNat_le.2 (by omega)
    have hdealt : ((deal superframe_id num_slots cells s r).2.num_residual_slot .SLOT_TYPE_DATA
        superframe_id).toNat =
        (s.2.num_residual_slot .SLOT_TYPE_DATA superframe_id).toNat - num_slots.toNat := by
      show (SlotAssignmentRecord.num_residual_slot (s.2.counted ..) _ _).toNat = _
      rw [counted_residual, UInt16.toNat_sub_of_le _ _ hone]
    obtain ⟨hres, hothers⟩ := @ih (deal superframe_id num_slots cells s r) (by omega)
    refine ⟨?_, fun s' hs' => ?_⟩
    · rw [List.foldl_cons]
      omega
    · rw [List.foldl_cons, hothers s' hs']
      exact counted_residual_of_ne hs'

/-! The equal shares -/

/-- The cells of an equal share, as far as the volume goes. -/
def shareCells (n num_slots : UInt16) (credit_value : UInt64) : UInt64 :=
  (if credit_value > (num_slots.toUInt32 * n.toUInt32).toUInt64 then num_slots.toUInt32 * n.toUInt32
    else credit_value.toUInt32).toUInt64

/-- The cells of a free share that the volume takes. -/
theorem shareCells_toNat (n num_slots : UInt16) (v : UInt64) :
    (shareCells n num_slots v).toNat = min v.toNat (num_slots.toNat * n.toNat) := by
  have hmul : (num_slots.toUInt32 * n.toUInt32).toNat = num_slots.toNat * n.toNat := by
    have hk := num_slots.toNat_lt
    have hn := n.toNat_lt
    have hlt : num_slots.toNat * n.toNat < 2 ^ 16 * 2 ^ 16 := Nat.mul_lt_mul_of_lt_of_lt hk hn
    rw [UInt32.toNat_mul, UInt16.toNat_toUInt32, UInt16.toNat_toUInt32]
    exact Nat.mod_eq_of_lt (by omega)
  have hlt32 := (num_slots.toUInt32 * n.toUInt32).toNat_lt
  unfold shareCells
  rw [UInt32.toNat_toUInt64]
  by_cases hgt : v > (num_slots.toUInt32 * n.toUInt32).toUInt64
  · have h := UInt64.lt_iff_toNat_lt.1 hgt
    rw [UInt32.toNat_toUInt64, hmul] at h
    rw [if_pos hgt, hmul]
    omega
  · have h := UInt64.le_iff_toNat_le.1 (UInt64.not_lt.1 hgt)
    rw [UInt32.toNat_toUInt64] at h
    rw [if_neg hgt, UInt64.toNat_toUInt32, Nat.mod_eq_of_lt (by omega)]
    omega

/-- **Shares.** The loop gives a share to every active terminal. -/
theorem foldlM_fcaShare {num_slots : UInt16} (hsid : superframe_id ≤ MAX_SUPERFRAME_ID)
    {l : List RcstInfo} {s : FcaState}
    (h : l.countP (RcstInfoList.active superframe_id) * num_slots.toNat ≤
      (s.2.num_residual_slot .SLOT_TYPE_DATA superframe_id).toNat) :
    l.foldlM (fcaShare ncc superframe_id num_slots) s =
      .ok ((l.filter (RcstInfoList.active superframe_id)).foldl
        (deal superframe_id num_slots (shareCells ncc.num_of_atm_per_slot num_slots)) s) := by
  induction l generalizing s with
  | nil => rfl
  | cons r l ih =>
    rw [List.foldlM_cons, fcaShare]
    by_cases hact : RcstInfoList.active superframe_id r
    · rw [List.countP_cons_of_pos hact, Nat.succ_mul] at h
      have hone : num_slots ≤ s.2.num_residual_slot .SLOT_TYPE_DATA superframe_id :=
        UInt16.le_iff_toNat_le.2 (by omega)
      have hdealt : ((deal superframe_id num_slots (shareCells ncc.num_of_atm_per_slot num_slots)
          s r).2.num_residual_slot .SLOT_TYPE_DATA superframe_id).toNat =
          (s.2.num_residual_slot .SLOT_TYPE_DATA superframe_id).toNat - num_slots.toNat := by
        show (SlotAssignmentRecord.num_residual_slot (s.2.counted ..) _ _).toNat = _
        rw [counted_residual, UInt16.toNat_sub_of_le _ _ hone]
      rw [if_pos hact, add_num_slot_of_le hsid hone, List.filter_cons_of_pos hact, List.foldl_cons]
      exact @ih (deal superframe_id num_slots (shareCells ncc.num_of_atm_per_slot num_slots) s r)
        (by omega)
    · rw [List.countP_cons_of_neg hact] at h
      rw [if_neg hact, List.filter_cons_of_neg hact]
      exact ih h

/-! The slots that are left -/

/-- The cells that are taken off for a single slot. -/
def extraCells (credit_value : UInt64) : UInt64 := if credit_value ≥ 2 then 2 else 0

/-- The same as a number. -/
def extraOff (volume : Nat) : Nat := if 2 ≤ volume then 2 else 0

/-- What one extra slot takes off a volume. -/
theorem extraCells_toNat (v : UInt64) : (extraCells v).toNat = extraOff v.toNat := by
  unfold extraCells extraOff
  by_cases h : v ≥ 2
  · have h2 : 2 ≤ v.toNat := UInt64.le_iff_toNat_le.1 h
    rw [if_pos h, if_pos h2]
    rfl
  · have h2 : ¬ 2 ≤ v.toNat := fun h' => h (UInt64.le_iff_toNat_le.2 h')
    rw [if_neg h, if_neg h2]
    rfl

/-- An extra slot takes no more than the volume. -/
theorem extraOff_le (v : Nat) : extraOff v ≤ v := by
  unfold extraOff
  split <;> omega

/-- The loop goes from the iterator on and gives a slot to each active RCST until none is left. -/
theorem loop_fcaRound (hsid : superframe_id ≤ MAX_SUPERFRAME_ID) {ahead : List RcstInfo} {i fuel : Nat}
    {s : FcaState}
    (hahead : ∀ k < ahead.length,
      ahead[k]? = rcst_infos.info_list[(i + k) % rcst_infos.info_list.length]?)
    (hi : i < rcst_infos.info_list.length) (hfuel : ahead.length < fuel)
    (hres : (s.2.num_residual_slot .SLOT_TYPE_DATA superframe_id).toNat ≤
      ahead.countP (RcstInfoList.active superframe_id)) :
    ∃ i', loop .diverges (fcaRound rcst_infos superframe_id) fuel (s, i) =
      .ok (((ahead.filter (RcstInfoList.active superframe_id)).take
        (s.2.num_residual_slot .SLOT_TYPE_DATA superframe_id).toNat).foldl
          (deal superframe_id 1 extraCells) s, i') := by
  induction ahead generalizing i fuel s with
  | nil =>
    obtain ⟨fuel, rfl⟩ := Nat.exists_eq_succ_of_ne_zero (Nat.ne_of_gt hfuel)
    have hzero : s.2.num_residual_slot .SLOT_TYPE_DATA superframe_id = 0 :=
      UInt16.toNat_inj.1 (Nat.le_zero.1 hres)
    refine ⟨i, ?_⟩
    rw [loop, fcaRound, get_num_residual_slot_of_le hsid, bind_ok, hzero]
    rfl
  | cons r ahead ih =>
    obtain ⟨fuel, rfl⟩ := Nat.exists_eq_succ_of_ne_zero (Nat.ne_of_gt (Nat.zero_lt_of_lt hfuel))
    rw [List.length_cons] at hahead
    have hlen : ahead.length < fuel := Nat.lt_of_succ_lt_succ hfuel
    have hr : rcst_infos.info_list[i]? = some r := by
      have h := hahead 0 (Nat.succ_pos _)
      rw [Nat.add_zero, Nat.mod_eq_of_lt hi] at h
      exact h.symm
    have hnext : ∀ k < ahead.length, ahead[k]? = rcst_infos.info_list[
        (RoundRobin.next rcst_infos.info_list.length i + k) % rcst_infos.info_list.length]? := by
      intro k hk
      have h := hahead (k + 1) (Nat.succ_lt_succ hk)
      rw [RoundRobin.next_eq_mod hi, Nat.mod_add_mod, Nat.add_assoc, Nat.add_comm 1 k]
      exact h
    have hi' := RoundRobin.next_lt hi
    by_cases hzero : s.2.num_residual_slot .SLOT_TYPE_DATA superframe_id = 0
    · refine ⟨i, ?_⟩
      rw [loop, fcaRound, get_num_residual_slot_of_le hsid, bind_ok, hzero]
      rfl
    have hpos : s.2.num_residual_slot .SLOT_TYPE_DATA superframe_id > 0 :=
      UInt16.pos_iff_ne_zero.2 hzero
    have hposNat := UInt16.lt_iff_toNat_lt.1 hpos
    rw [loop, fcaRound, get_num_residual_slot_of_le hsid, bind_ok, if_pos hpos]
    dsimp only
    rw [hr]
    dsimp only
    by_cases hact : RcstInfoList.active superframe_id r
    · rw [List.countP_cons_of_pos hact] at hres
      have hone : (1 : UInt16) ≤ s.2.num_residual_slot .SLOT_TYPE_DATA superframe_id :=
        UInt16.le_iff_toNat_le.2 hposNat
      have hdealt : ((deal superframe_id 1 extraCells s r).2.num_residual_slot .SLOT_TYPE_DATA
          superframe_id).toNat =
          (s.2.num_residual_slot .SLOT_TYPE_DATA superframe_id).toNat - 1 := by
        show (SlotAssignmentRecord.num_residual_slot (s.2.counted ..) _ _).toNat = _
        rw [counted_residual, UInt16.toNat_sub_of_le _ _ hone]
        rfl
      obtain ⟨i', hrun⟩ := @ih (RoundRobin.next rcst_infos.info_list.length i) fuel
        (deal superframe_id 1 extraCells s r) hnext hi' hlen (by omega)
      refine ⟨i', ?_⟩
      have htake : (s.2.num_residual_slot .SLOT_TYPE_DATA superframe_id).toNat =
          ((deal superframe_id 1 extraCells s r).2.num_residual_slot .SLOT_TYPE_DATA
            superframe_id).toNat + 1 := by omega
      rw [if_pos hact, add_num_slot_of_le hsid hone, List.filter_cons_of_pos hact, htake,
        List.take_succ_cons, List.foldl_cons]
      exact hrun
    · rw [List.countP_cons_of_neg hact] at hres
      obtain ⟨i', hrun⟩ := @ih (RoundRobin.next rcst_infos.info_list.length i) fuel s hnext hi' hlen hres
      refine ⟨i', ?_⟩
      rw [if_neg hact, List.filter_cons_of_neg hact]
      exact hrun

/-! A superframe -/

/-- The volume and the data slots of an RCST of a superframe once its free capacity is dealt out. -/
def dealtAccount (ncc : NccSlots) (rcst_infos : RcstInfoList) (superframe_id : UInt8)
    (it_rr : UInt8 → Nat) (s : FcaState) (rcst_id : RcstId) : Nat × UInt16 :=
  let share := equalShare rcst_infos s.2 superframe_id
  let rest := restVolume ncc rcst_infos s superframe_id rcst_id
  if rcst_id ∈ (extraShares rcst_infos s.2 it_rr superframe_id).map RcstInfo.rcst_id then
    (rest - extraOff rest, s.2.get_num_slot rcst_id .SLOT_TYPE_DATA + .ofNat (share + 1))
  else (rest, s.2.get_num_slot rcst_id .SLOT_TYPE_DATA + .ofNat share)

/-- The RCSTs of a superframe that get free capacity. -/
def activeIn (rcst_infos : RcstInfoList) (superframe_id : UInt8) : List RcstInfo :=
  rcst_infos.info_list.filter (RcstInfoList.active superframe_id)

/-- The active terminals, counted. -/
theorem length_activeIn : (activeIn rcst_infos superframe_id).length =
    rcst_infos.active_rcst_amount superframe_id :=
  (List.countP_eq_length_filter ..).symm

/-- The RCSTs from the iterator on are those of the list. -/
theorem rotate_active_perm (i : Nat) :
    ((rcst_infos.info_list.rotate i).filter (RcstInfoList.active superframe_id)).Perm
      (activeIn rcst_infos superframe_id) :=
  (List.rotate_perm _ _).filter _

/-- Extra slots go to active terminals. -/
theorem extraShares_subset {record : SlotAssignmentRecord} {it_rr : UInt8 → Nat} {r : RcstInfo}
    (h : r ∈ extraShares rcst_infos record it_rr superframe_id) :
    r ∈ activeIn rcst_infos superframe_id :=
  (rotate_active_perm _).mem_iff.1 (List.mem_of_mem_take h)

/-- No terminal gets two of them. -/
theorem nodup_extraShares {record : SlotAssignmentRecord} {it_rr : UInt8 → Nat} :
    ((extraShares rcst_infos record it_rr superframe_id).map RcstInfo.rcst_id).Nodup := by
  have hactive : ((activeIn rcst_infos superframe_id).map RcstInfo.rcst_id).Nodup :=
    (List.filter_sublist.map _).nodup rcst_infos.nodup
  have hperm := @rotate_active_perm rcst_infos superframe_id (it_rr superframe_id)
  have hrotate := (hperm.map RcstInfo.rcst_id).nodup_iff.2 hactive
  exact ((List.take_sublist ..).map _).nodup hrotate

/-- One superframe of the pass for free capacity. -/
structure FcaSettled (ncc : NccSlots) (rcst_infos : RcstInfoList) (superframe_id : UInt8)
    (s s' : FcaState × (UInt8 → Nat)) : Prop where
  distinct : Distinct s'.1.1
  iterators : ∀ sid ≠ superframe_id, s'.2 sid = s.2 sid
  residuals : ∀ sid ≠ superframe_id, s'.1.2.num_residual_slot .SLOT_TYPE_DATA sid =
    s.1.2.num_residual_slot .SLOT_TYPE_DATA sid
  accounts : ∀ id, account s'.1 id =
    if id ∈ (activeIn rcst_infos superframe_id).map RcstInfo.rcst_id then
      dealtAccount ncc rcst_infos superframe_id s.2 s.1 id
    else account s.1 id

/-- **Step lemma.** The equal shares and the single slots behind them. -/
theorem fca_settles {fuel : Nat} {s : FcaState × (UInt8 → Nat)}
    (hsid : superframe_id ≤ MAX_SUPERFRAME_ID) (hd : Distinct s.1.1)
    (hno : rcst_infos.active_rcst_amount superframe_id ≠ 0)
    (hit : s.2 superframe_id < rcst_infos.info_list.length)
    (hfuel : rcst_infos.info_list.length < fuel) :
    ∃ t i', rcst_infos.info_list.foldlM (fcaShare ncc superframe_id
        (.ofNat ((s.1.2.num_residual_slot .SLOT_TYPE_DATA superframe_id).toNat /
          rcst_infos.active_rcst_amount superframe_id))) s.1 = .ok t ∧
      ∃ t', loop .diverges (fcaRound rcst_infos superframe_id) fuel (t, s.2 superframe_id) =
          .ok (t', i') ∧
        FcaSettled ncc rcst_infos superframe_id s (t', Function.update s.2 superframe_id i') := by
  generalize hR : (s.1.2.num_residual_slot .SLOT_TYPE_DATA superframe_id).toNat = R
  have hRlt : R < 2 ^ 16 := hR ▸ (s.1.2.num_residual_slot .SLOT_TYPE_DATA superframe_id).toNat_lt
  have hamount := @length_activeIn rcst_infos superframe_id
  generalize ha : rcst_infos.active_rcst_amount superframe_id = a at hno hamount
  have hshare : equalShare rcst_infos s.1.2 superframe_id = R / a := by rw [equalShare, hR, ha]
  have hshareNat : (UInt16.ofNat (R / a)).toNat = R / a :=
    UInt16.toNat_ofNat_of_lt' (Nat.lt_of_le_of_lt (Nat.div_le_self _ _) hRlt)
  have hmul : a * (R / a) ≤ R := Nat.mul_div_le _ _
  -- the equal shares
  have hshares := @foldlM_fcaShare ncc superframe_id (.ofNat (R / a)) hsid rcst_infos.info_list s.1
    (by rw [hshareNat, hR]; exact ha ▸ hmul)
  have hnd : ((activeIn rcst_infos superframe_id).map RcstInfo.rcst_id).Nodup :=
    (List.filter_sublist.map _).nodup rcst_infos.nodup
  obtain ⟨hd₁, hacc₁⟩ := @account_deal superframe_id (.ofNat (R / a)) _ _
    (shareCells_toNat ncc.num_of_atm_per_slot (.ofNat (R / a))) (fun v => Nat.min_le_left ..)
    _ hnd s.1 hd
  obtain ⟨hres₁, hothers₁⟩ := @residual_deal superframe_id (.ofNat (R / a))
    (shareCells ncc.num_of_atm_per_slot (.ofNat (R / a))) (activeIn rcst_infos superframe_id) s.1
    (by rw [hamount, hshareNat, hR]; exact hmul)
  rw [hamount, hshareNat, hR] at hres₁
  unfold activeIn at hres₁ hacc₁ hothers₁ hd₁
  generalize (rcst_infos.info_list.filter (RcstInfoList.active superframe_id)).foldl
    (deal superframe_id (.ofNat (R / a)) (shareCells ncc.num_of_atm_per_slot (.ofNat (R / a)))) s.1 =
      t at hshares hd₁ hacc₁ hres₁ hothers₁
  have hleft : (t.2.num_residual_slot .SLOT_TYPE_DATA superframe_id).toNat = R % a := by
    have hdiv := Nat.div_add_mod R a
    omega
  -- the slots that are left
  have hperm := @rotate_active_perm rcst_infos superframe_id (s.2 superframe_id)
  have hcount : (rcst_infos.info_list.rotate (s.2 superframe_id)).countP
      (RcstInfoList.active superframe_id) = a := by
    rw [List.countP_eq_length_filter, hperm.length_eq, hamount]
  obtain ⟨i', hloop⟩ := @loop_fcaRound rcst_infos superframe_id hsid
    (rcst_infos.info_list.rotate (s.2 superframe_id)) (s.2 superframe_id) fuel t (fun k hk => by
      rw [List.length_rotate] at hk
      rw [List.getElem?_rotate hk, Nat.add_comm]) hit (by rw [List.length_rotate]; exact hfuel) (by
      rw [hleft, hcount]
      exact Nat.le_of_lt (Nat.mod_lt _ (Nat.pos_of_ne_zero hno)))
  have hextras : ((rcst_infos.info_list.rotate (s.2 superframe_id)).filter
      (RcstInfoList.active superframe_id)).take
        (t.2.num_residual_slot .SLOT_TYPE_DATA superframe_id).toNat =
      extraShares rcst_infos s.1.2 s.2 superframe_id := by
    rw [extraShares, hleft, hR, ha]
  rw [hextras] at hloop
  obtain ⟨hd₂, hacc₂⟩ := @account_deal superframe_id 1 _ _ extraCells_toNat extraOff_le _
    (@nodup_extraShares rcst_infos superframe_id s.1.2 s.2) t hd₁
  have hlen : (extraShares rcst_infos s.1.2 s.2 superframe_id).length * (1 : UInt16).toNat ≤
      (t.2.num_residual_slot .SLOT_TYPE_DATA superframe_id).toNat := by
    rw [← hextras, show (1 : UInt16).toNat = 1 from rfl, Nat.mul_one]
    exact List.length_take_le _ _
  obtain ⟨-, hothers₂⟩ := @residual_deal superframe_id 1 extraCells _ t hlen
  refine ⟨t, i', hshares, _, hloop, hd₂, fun sid hne => Function.update_of_ne hne ..,
    fun sid hne => (hothers₂ sid hne).trans (hothers₁ sid hne), fun id => ?_⟩
  have hrest : restVolume ncc rcst_infos s.1 superframe_id id =
      (account s.1 id).1 - min (account s.1 id).1 (R / a * ncc.num_of_atm_per_slot.toNat) := by
    rw [restVolume, hshare, account]
    omega
  rw [hshareNat] at hacc₁
  show account _ id = _
  rw [hacc₂ id, hacc₁ id]
  unfold dealtAccount activeIn
  rw [hshare, hrest]
  by_cases hin : id ∈ (rcst_infos.info_list.filter (RcstInfoList.active superframe_id)).map
      RcstInfo.rcst_id
  · rw [if_pos hin, if_pos hin]
    by_cases hex : id ∈ (extraShares rcst_infos s.1.2 s.2 superframe_id).map RcstInfo.rcst_id
    · rw [if_pos hex, if_pos hex, UInt16.ofNat_add, ← UInt16.add_assoc]
      rfl
    · rw [if_neg hex, if_neg hex]
      rfl
  · have hex : ¬ id ∈ (extraShares rcst_infos s.1.2 s.2 superframe_id).map RcstInfo.rcst_id := by
      intro hex
      obtain ⟨r, hr, rfl⟩ := List.mem_map.1 hex
      exact hin (List.mem_map.2 ⟨r, extraShares_subset hr, rfl⟩)
    rw [if_neg hin, if_neg hin, if_neg hex]

/-- Where nothing is left, nothing is dealt out. -/
theorem dealtAccount_of_none {s : FcaState} {it_rr : UInt8 → Nat} {id : RcstId}
    (h : s.2.num_residual_slot .SLOT_TYPE_DATA superframe_id = 0) :
    dealtAccount ncc rcst_infos superframe_id it_rr s id = account s id := by
  have hextra : extraShares rcst_infos s.2 it_rr superframe_id = [] := by
    rw [extraShares, h, show (0 : UInt16).toNat = 0 from rfl, Nat.zero_mod, List.take_zero]
  have hshare : equalShare rcst_infos s.2 superframe_id = 0 := by
    rw [equalShare, h, show (0 : UInt16).toNat = 0 from rfl, Nat.zero_div]
  rw [dealtAccount, hextra, restVolume, hshare, Nat.zero_mul, List.map_nil, if_neg List.not_mem_nil]
  exact Prod.ext (Nat.sub_zero _) (UInt16.add_zero _)

/-- With nobody active the list is empty. -/
theorem activeIn_eq_nil (h : rcst_infos.active_rcst_amount superframe_id = 0) :
    activeIn rcst_infos superframe_id = [] :=
  List.length_eq_zero_iff.1 (length_activeIn.trans h)

/-- With nobody active or no slot left nothing is given. -/
theorem FcaSettled.refl {s : FcaState × (UInt8 → Nat)} (hd : Distinct s.1.1)
    (h : rcst_infos.active_rcst_amount superframe_id = 0 ∨
      s.1.2.num_residual_slot .SLOT_TYPE_DATA superframe_id = 0) :
    FcaSettled ncc rcst_infos superframe_id s s where
  distinct := hd
  iterators _ _ := rfl
  residuals _ _ := rfl
  accounts id := by
    rcases h with h | h
    · rw [activeIn_eq_nil h, List.map_nil, if_neg List.not_mem_nil]
    · rw [dealtAccount_of_none h, ite_self]

/-- The pass for free capacity up to a superframe. -/
structure FcaUpTo (ncc : NccSlots) (rcst_infos : RcstInfoList) (s : FcaState × (UInt8 → Nat)) (k : Nat)
    (t : FcaState × (UInt8 → Nat)) : Prop where
  distinct : Distinct t.1.1
  later : ∀ sid : UInt8, k ≤ sid.toNat → t.2 sid = s.2 sid ∧
    t.1.2.num_residual_slot .SLOT_TYPE_DATA sid = s.1.2.num_residual_slot .SLOT_TYPE_DATA sid
  accounts : ∀ sid : UInt8, ∀ r ∈ activeIn rcst_infos sid, account t.1 r.rcst_id =
    if sid.toNat < k then dealtAccount ncc rcst_infos sid s.2 s.1 r.rcst_id
    else account s.1 r.rcst_id
  frame : ∀ id, (∀ sid : UInt8, ∀ r ∈ activeIn rcst_infos sid, r.rcst_id ≠ id) →
    account t.1 id = account s.1 id

/-- What is dealt to an RCST depends on its account and its superframe only. -/
theorem dealtAccount_congr {s t : FcaState × (UInt8 → Nat)} {id : RcstId}
    (hit : t.2 superframe_id = s.2 superframe_id)
    (hres : t.1.2.num_residual_slot .SLOT_TYPE_DATA superframe_id =
      s.1.2.num_residual_slot .SLOT_TYPE_DATA superframe_id) (hacc : account t.1 id = account s.1 id) :
    dealtAccount ncc rcst_infos superframe_id t.2 t.1 id =
      dealtAccount ncc rcst_infos superframe_id s.2 s.1 id := by
  have hvol : t.1.1.volume id = s.1.1.volume id := congrArg Prod.fst hacc
  have hslots : t.1.2.get_num_slot id .SLOT_TYPE_DATA = s.1.2.get_num_slot id .SLOT_TYPE_DATA :=
    congrArg Prod.snd hacc
  unfold dealtAccount extraShares restVolume equalShare
  rw [hit, hres, hvol, hslots]

/-- A terminal is active in one superframe only. -/
theorem eq_of_active {sid : UInt8} {r r' : RcstInfo} (hr : r ∈ activeIn rcst_infos superframe_id)
    (hr' : r' ∈ activeIn rcst_infos sid) (h : r.rcst_id = r'.rcst_id) : superframe_id = sid := by
  obtain ⟨hr, hact⟩ := List.mem_filter.1 hr
  obtain ⟨hr', hact'⟩ := List.mem_filter.1 hr'
  obtain rfl := RcstInfoList.eq_of_rcst_id hr hr' h
  exact (of_decide_eq_true hact).1.symm.trans (of_decide_eq_true hact').1

/-- One more superframe is settled. -/
theorem FcaUpTo.step {s t t' : FcaState × (UInt8 → Nat)}
    (h : FcaUpTo ncc rcst_infos s superframe_id.toNat t)
    (hstep : FcaSettled ncc rcst_infos superframe_id t t') :
    FcaUpTo ncc rcst_infos s (superframe_id.toNat + 1) t' where
  distinct := hstep.distinct
  later sid hsid := by
    have hne : sid ≠ superframe_id := by
      rintro rfl
      omega
    obtain ⟨hit, hres⟩ := h.later sid (by omega)
    exact ⟨(hstep.iterators sid hne).trans hit, (hstep.residuals sid hne).trans hres⟩
  accounts sid r hr := by
    have hacc := h.accounts sid r hr
    rw [hstep.accounts r.rcst_id]
    by_cases heq : sid = superframe_id
    · subst heq
      obtain ⟨hit, hres⟩ := h.later sid (Nat.le_refl _)
      rw [if_neg (Nat.lt_irrefl _)] at hacc
      rw [if_pos (List.mem_map_of_mem hr), if_pos (Nat.lt_succ_self _)]
      exact dealtAccount_congr hit hres hacc
    · have hnot : r.rcst_id ∉ (activeIn rcst_infos superframe_id).map RcstInfo.rcst_id := by
        intro hmem
        obtain ⟨r', hr', hid⟩ := List.mem_map.1 hmem
        exact heq (eq_of_active hr hr' hid.symm)
      have hne : sid.toNat ≠ superframe_id.toNat := fun h' => heq (UInt8.toNat_inj.1 h')
      have hiff : sid.toNat < superframe_id.toNat ↔ sid.toNat < superframe_id.toNat + 1 := by omega
      rw [if_neg hnot, hacc]
      exact if_congr hiff rfl rfl
  frame id hno := by
    have hnot : id ∉ (activeIn rcst_infos superframe_id).map RcstInfo.rcst_id := by
      intro hmem
      obtain ⟨r, hr, hid⟩ := List.mem_map.1 hmem
      exact hno superframe_id r hr hid
    rw [hstep.accounts id, if_neg hnot]
    exact h.frame id hno

/-- **Run lemma.** The pass for free capacity ends, and settles every superframe. -/
theorem scheduling_for_fca_rr_settles {fuel : Nat} {s : FcaState × (UInt8 → Nat)}
    (hrange : InRange ncc rcst_infos fuel s.2) (hd : Distinct s.1.1) :
    ∃ t, scheduling_for_fca_rr ncc rcst_infos fuel s = .ok t ∧
      FcaUpTo ncc rcst_infos s (ncc.max_superframe_id.toNat + 1) t := by
  have hfuel := hrange.fuel
  have hrun : Ends (fun _ => False) (FcaUpTo ncc rcst_infos s (ncc.max_superframe_id.toNat + 1))
      (scheduling_for_fca_rr ncc rcst_infos fuel s) := by
    refine forSuperframes_index (I := FcaUpTo ncc rcst_infos s) (fun sid hle t ht => ?_)
      hrange.max_superframe_id (by omega) ?_
    · have hsid : sid ≤ MAX_SUPERFRAME_ID :=
        UInt8.le_iff_toNat_le.2 (Nat.le_trans hle hrange.max_superframe_id)
      dsimp only
      by_cases hno : rcst_infos.active_rcst_amount sid = 0
      · rw [if_pos hno]
        exact Ends.ok (ht.step (FcaSettled.refl ht.distinct (.inl hno)))
      rw [if_neg hno, get_num_residual_slot_of_le hsid, bind_ok]
      by_cases hpos : t.1.2.num_residual_slot .SLOT_TYPE_DATA sid > 0
      · have hne : rcst_infos.info_list ≠ [] := by
          intro hnil
          rw [RcstInfoList.active_rcst_amount, hnil] at hno
          exact hno rfl
        have hit : t.2 sid < rcst_infos.info_list.length := by
          rw [(ht.later sid (Nat.le_refl _)).1]
          exact hrange.it_rr hne sid
        obtain ⟨t₁, i', hshares, t₂, hloop, hsettled⟩ :=
          @fca_settles ncc rcst_infos sid fuel t hsid ht.distinct hno hit (by omega)
        rw [if_pos hpos, hshares, bind_ok, hloop, bind_ok]
        exact Ends.ok (ht.step hsettled)
      · have hzero : t.1.2.num_residual_slot .SLOT_TYPE_DATA sid = 0 := by
          by_contra h
          exact hpos (UInt16.pos_iff_ne_zero.2 h)
        rw [if_neg hpos]
        exact Ends.ok (ht.step (FcaSettled.refl ht.distinct (.inr hzero)))
    · exact ⟨hd, fun _ _ => ⟨rfl, rfl⟩, fun _ _ _ => (if_neg (Nat.not_lt_zero _)).symm,
        fun _ _ => rfl⟩
  obtain ⟨t, ht, h⟩ | ⟨e, -, hfalse⟩ := hrun.cases
  · exact ⟨t, ht, h⟩
  · exact hfalse.elim

/-! ### Paying for free capacity -/

/-- An RCST with an account dealt out has paid if and only if it gets no single slot, or the two cells
    that are taken off for it are what the slot costs. -/
theorem paid_dealt_iff {s : FcaState} {it_rr : UInt8 → Nat} {t : FcaState} {r : RcstInfo}
    (hn : ncc.num_of_atm_per_slot ≠ 0) (hr : r ∈ activeIn rcst_infos superframe_id)
    (hacc : account t r.rcst_id = dealtAccount ncc rcst_infos superframe_id it_rr s r.rcst_id) :
    t.1.volume r.rcst_id = (payForSlot ncc.num_of_atm_per_slot.toNat)^[s.2.givenSince t.2 r.rcst_id]
        (s.1.volume r.rcst_id) ↔
      (r ∈ extraShares rcst_infos s.2 it_rr superframe_id →
        let rest := restVolume ncc rcst_infos s superframe_id r.rcst_id
        rest = 0 ∨ min rest ncc.num_of_atm_per_slot.toNat = 2) := by
  have hvol : t.1.volume r.rcst_id = (account t r.rcst_id).1 := rfl
  have hslots : t.2.get_num_slot r.rcst_id .SLOT_TYPE_DATA = (account t r.rcst_id).2 := rfl
  have hRlt := (s.2.num_residual_slot .SLOT_TYPE_DATA superframe_id).toNat_lt
  have hnpos : 0 < ncc.num_of_atm_per_slot.toNat :=
    Nat.pos_of_ne_zero fun h0 => hn (UInt16.toNat_inj.1 h0)
  have hgiven : ∀ k, k < 2 ^ 16 → (account t r.rcst_id).2 =
      s.2.get_num_slot r.rcst_id .SLOT_TYPE_DATA + .ofNat k → s.2.givenSince t.2 r.rcst_id = k := by
    intro k hk h
    rw [givenSince, hslots, h, UInt16.add_comm, UInt16.add_sub_cancel, UInt16.toNat_ofNat_of_lt' hk]
  have hshare : equalShare rcst_infos s.2 superframe_id ≤
      (s.2.num_residual_slot .SLOT_TYPE_DATA superframe_id).toNat := Nat.div_le_self _ _
  by_cases hex : r ∈ extraShares rcst_infos s.2 it_rr superframe_id
  · rw [dealtAccount, if_pos (List.mem_map_of_mem hex)] at hacc
    -- a slot over the equal shares is one that the division leaves
    have hlt : equalShare rcst_infos s.2 superframe_id + 1 < 2 ^ 16 := by
      have hpos : 0 < (s.2.num_residual_slot .SLOT_TYPE_DATA superframe_id).toNat %
          rcst_infos.active_rcst_amount superframe_id := by
        by_contra h0
        rw [extraShares, Nat.eq_zero_of_not_pos h0, List.take_zero] at hex
        exact List.not_mem_nil hex
      have hamount : 0 < rcst_infos.active_rcst_amount superframe_id := by
        rw [← length_activeIn]
        exact List.length_pos_of_mem hr
      have hdiv := Nat.div_add_mod (s.2.num_residual_slot .SLOT_TYPE_DATA superframe_id).toNat
        (rcst_infos.active_rcst_amount superframe_id)
      have hmul := Nat.le_mul_of_pos_left (equalShare rcst_infos s.2 superframe_id) hamount
      unfold equalShare at hmul ⊢
      omega
    rw [hvol, hgiven _ hlt (by rw [hacc]), hacc, payForSlot_iterate, Nat.succ_mul, ← Nat.sub_sub]
    show restVolume ncc rcst_infos s superframe_id r.rcst_id - _ =
      restVolume ncc rcst_infos s superframe_id r.rcst_id - _ ↔ _
    generalize restVolume ncc rcst_infos s superframe_id r.rcst_id = rest
    have hoff : rest - extraOff rest = rest - ncc.num_of_atm_per_slot.toNat ↔
        rest = 0 ∨ min rest ncc.num_of_atm_per_slot.toNat = 2 := by
      unfold extraOff
      split <;> omega
    exact hoff.trans ⟨fun h _ => h, fun h => h hex⟩
  · have hnot : r.rcst_id ∉ (extraShares rcst_infos s.2 it_rr superframe_id).map
        RcstInfo.rcst_id := by
      intro hmem
      obtain ⟨r', hr', hid⟩ := List.mem_map.1 hmem
      have hact := (List.mem_filter.1 (extraShares_subset hr')).1
      exact hex (RcstInfoList.eq_of_rcst_id hact (List.mem_filter.1 hr).1 hid ▸ hr')
    rw [dealtAccount, if_neg hnot] at hacc
    have hlt : equalShare rcst_infos s.2 superframe_id < 2 ^ 16 := Nat.lt_of_le_of_lt hshare hRlt
    rw [hvol, hgiven _ hlt (by rw [hacc]), hacc, payForSlot_iterate]
    exact ⟨fun _ h => absurd h hex, fun _ => rfl⟩

/-- The pass for free capacity pays for what it deals out if and only if the single slots are right. -/
theorem fca_paid_iff {s : FcaState} {it_rr : UInt8 → Nat} {t : FcaState × (UInt8 → Nat)}
    (hn : rcst_infos.info_list = [] ∨ ncc.num_of_atm_per_slot ≠ 0)
    (h : FcaUpTo ncc rcst_infos (s, it_rr) (ncc.max_superframe_id.toNat + 1) t) :
    Paid ncc s t.1 ↔ ∀ superframe_id : UInt8, superframe_id.toUInt16 ≤ ncc.max_superframe_id →
      ∀ r ∈ extraShares rcst_infos s.2 it_rr superframe_id,
        restVolume ncc rcst_infos s superframe_id r.rcst_id = 0 ∨
          min (restVolume ncc rcst_infos s superframe_id r.rcst_id)
            ncc.num_of_atm_per_slot.toNat = 2 := by
  have hcells : ∀ sid, ∀ r ∈ activeIn rcst_infos sid, ncc.num_of_atm_per_slot ≠ 0 := by
    intro sid r hr
    refine hn.resolve_left fun hnil => ?_
    have hmem := (List.mem_filter.1 hr).1
    rw [hnil] at hmem
    exact List.not_mem_nil hmem
  have hdealt : ∀ sid : UInt8, sid.toUInt16 ≤ ncc.max_superframe_id → ∀ r ∈ activeIn rcst_infos sid,
      account t.1 r.rcst_id = dealtAccount ncc rcst_infos sid it_rr s r.rcst_id := by
    intro sid hle r hr
    have hlt : sid.toNat < ncc.max_superframe_id.toNat + 1 :=
      Nat.lt_succ_of_le (UInt16.le_iff_toNat_le.1 hle)
    rw [h.accounts sid r hr, if_pos hlt]
  -- an account that is as it was has nothing to pay
  have hsame : ∀ id, account t.1 id = account s id → t.1.1.volume id =
      (payForSlot ncc.num_of_atm_per_slot.toNat)^[s.2.givenSince t.1.2 id] (s.1.volume id) := by
    intro id hacc
    have hslots : t.1.2.get_num_slot id .SLOT_TYPE_DATA = s.2.get_num_slot id .SLOT_TYPE_DATA :=
      congrArg Prod.snd hacc
    rw [givenSince, hslots, UInt16.sub_self]
    exact congrArg Prod.fst hacc
  constructor
  · intro hpaid sid hle r hr
    have hact := extraShares_subset hr
    exact (paid_dealt_iff (hcells sid r hact) hact (hdealt sid hle r hact)).1 (hpaid r.rcst_id) hr
  · intro hright id
    by_cases hex : ∃ sid : UInt8, ∃ r ∈ activeIn rcst_infos sid, r.rcst_id = id
    · obtain ⟨sid, r, hr, rfl⟩ := hex
      by_cases hle : sid.toUInt16 ≤ ncc.max_superframe_id
      · exact (paid_dealt_iff (hcells sid r hr) hr (hdealt sid hle r hr)).2 (hright sid hle r)
      · refine hsame r.rcst_id ?_
        rw [h.accounts sid r hr, if_neg fun hlt => hle ?_]
        exact UInt16.le_iff_toNat_le.2 (Nat.le_of_lt_succ hlt)
    · exact hsame id (h.frame id fun sid r hr hid => hex ⟨sid, r, hr, hid⟩)

/-- **Paying with volume.** The pass for volume requests takes off what each slot costs; the pass for
    free capacity does if and only if every RCST that gets a single slot has no volume left or owes
    two cells for it. -/
theorem volume_paid_iff {fuel : Nat} {heap : HeapOfCapacityRequest}
    {s t : RcstCredit × SlotAssignmentRecord} {it_rr : UInt8 → Nat}
    (hrange : InRange ncc rcst_infos fuel it_rr) (hd : Distinct s.1)
    (h : scheduling_for_vbdc_and_avbdc ncc rcst_infos fuel heap s = .ok t) :
    (Paid ncc (recordRequests heap s.1, s.2) t ∧ Covered ncc (recordRequests heap s.1, s.2) t ∧
      ∃ u, scheduling_for_fca_rr ncc rcst_infos fuel (t, it_rr) = .ok u ∧ Paid ncc t u.1) ↔
    ∀ superframe_id : UInt8, superframe_id.toUInt16 ≤ ncc.max_superframe_id →
      ∀ r ∈ extraShares rcst_infos t.2 it_rr superframe_id,
        restVolume ncc rcst_infos t superframe_id r.rcst_id = 0 ∨
          min (restVolume ncc rcst_infos t superframe_id r.rcst_id)
            ncc.num_of_atm_per_slot.toNat = 2 := by
  have hfuel := hrange.fuel
  obtain ⟨hpaid, hcov, hdt, hn⟩ := vbdc_paid hrange.max_superframe_id (by omega) hd h
  obtain ⟨u, hu, hsettled⟩ := @scheduling_for_fca_rr_settles ncc rcst_infos fuel (t, it_rr) hrange hdt
  have hiff := fca_paid_iff hn hsettled
  constructor
  · rintro ⟨-, -, u', hu', hpaid'⟩
    obtain rfl : u = u' := Except.ok.inj (hu.symm.trans hu')
    exact hiff.1 hpaid'
  · intro hright
    exact ⟨hpaid, hcov, u, hu, hiff.2 hright⟩

/-! ### Schedulings keep the credits distinct -/

/-- Recording a rate keeps the entries distinct. -/
theorem recordRbdc_distinct {request : RcstCapacityRequest} {credits' : RcstCredit}
    (hd : Distinct credits) (h : recordRbdc ncc rcst_infos credits request = .ok credits') :
    Distinct credits' := by
  unfold recordRbdc at h
  dsimp only at h
  split at h
  · obtain rfl := Except.ok.inj h
    exact hd.update fun _ _ h' => nomatch h'
  · split at h
    · obtain rfl := Except.ok.inj h
      refine ((hd.create ..).update (keepsKey_value _)).update fun e e' he => ?_
      obtain rfl := Option.some.inj he
      exact ⟨rfl, rfl⟩
    · cases h

/-- Serving rates adds no entry. -/
theorem serveRbdc_keys {record : SlotAssignmentRecord} {t : RcstCredit × SlotAssignmentRecord}
    (h : serveRbdc ncc rcst_infos credits record = .ok t) :
    (t.1.map fun e => (e.rcst_id, e.credit_type)).Sublist
      (credits.map fun e => (e.rcst_id, e.credit_type)) := by
  induction credits generalizing record t with
  | nil =>
    obtain rfl := Except.ok.inj h
    exact List.Sublist.refl _
  | cons e es ih =>
    unfold serveRbdc at h
    split at h
    · split at h
      · cases h
      · obtain ⟨added, -, h⟩ := of_bind_eq_ok h
        split at h
        · cases h
        · obtain ⟨rest, hrest, h⟩ := of_bind_eq_ok h
          obtain rfl := Except.ok.inj h
          dsimp only
          split
          · exact (ih hrest).cons _
          · exact (ih hrest).cons_cons _
    · obtain ⟨rest, hrest, h⟩ := of_bind_eq_ok h
      obtain rfl := Except.ok.inj h
      exact (ih hrest).cons_cons _

/-- A scheduling keeps the credits distinct; the first one starts with none. -/
theorem passes_distinct {fuel : Nat} {s t : TimeslotScheduler} (hfits : s.Fits ncc rcst_infos fuel)
    (hd : Distinct s.rcst_credits) (h : passes ncc rcst_infos fuel s = .ok t) :
    Distinct t.rcst_credits := by
  have hfuel := hfits.fuel
  obtain ⟨req, -, h⟩ := of_bind_eq_ok h
  obtain ⟨record, -, h⟩ := of_bind_eq_ok h
  obtain ⟨rbdc, hrbdc, h⟩ := of_bind_eq_ok h
  obtain ⟨vbdc, hvbdc, h⟩ := of_bind_eq_ok h
  have hrecorded : Ends (fun _ => True) Distinct
      (s.heap_of_capacity_request.rbdc_requests.foldlM (recordRbdc ncc rcst_infos)
        s.rcst_credits) := by
    refine Ends.foldlM (fun request _ credits hd => ?_) hd
    cases hr : recordRbdc ncc rcst_infos credits request with
    | error e => exact trivial
    | ok credits' => exact recordRbdc_distinct hd hr
  obtain ⟨credits, hcredits, hserve⟩ := of_bind_eq_ok hrbdc
  dsimp only at hcredits
  rw [hcredits] at hrecorded
  have hd₁ : Distinct rbdc.1 := (serveRbdc_keys hserve).nodup hrecorded
  obtain ⟨-, -, hd₂, -⟩ := vbdc_paid hfits.max_superframe_id (by omega) hd₁ hvbdc
  dsimp only at h
  split at h
  · obtain ⟨fca, hfca, h⟩ := of_bind_eq_ok h
    obtain rfl := Except.ok.inj h
    obtain ⟨u, hu, hsettled⟩ := @scheduling_for_fca_rr_settles ncc rcst_infos fuel (vbdc, s.it_rr)
      ⟨hfits.max_superframe_id, hfits.it_rr, hfuel⟩ hd₂
    obtain rfl : u = fca := Except.ok.inj (hu.symm.trans hfca)
    exact hsettled.distinct
  · obtain rfl := Except.ok.inj h
    exact hd₂

/-- A volume request of the first of three RCSTs. -/
def volumeRequest (cells : UInt32) : HeapOfCapacityRequest := ⟨[], [⟨⟨0, 1⟩, cells⟩], []⟩

/-- Three terminals within the ranges. -/
theorem threeRcsts_inRange (n : UInt16) :
    InRange (cellSlots n) threeRcsts (2 ^ 18) (fun _ => 0) where
  max_superframe_id := by
    show (0 : UInt16).toNat ≤ 254
    decide
  it_rr _ _ := by
    show 0 < 3
    decide
  fuel := by
    show 2 ^ 16 * (3 + 1) ≤ 2 ^ 18
    omega

set_option maxRecDepth 100000 in
/-- Slots of two cells and a volume of two slots. -/
theorem volume_paid_iff_two :
    ∃ t, scheduling_for_vbdc_and_avbdc (cellSlots 2) threeRcsts (2 ^ 18) (volumeRequest 4)
        ([], freshRecord 4) = .ok t ∧
      ((Paid (cellSlots 2) (recordRequests (volumeRequest 4) [], freshRecord 4) t ∧
        Covered (cellSlots 2) (recordRequests (volumeRequest 4) [], freshRecord 4) t ∧
        ∃ u, scheduling_for_fca_rr (cellSlots 2) threeRcsts (2 ^ 18) (t, fun _ => 0) = .ok u ∧
          Paid (cellSlots 2) t u.1) ↔
      ∀ superframe_id : UInt8, superframe_id.toUInt16 ≤ (cellSlots 2).max_superframe_id →
        ∀ r ∈ extraShares threeRcsts t.2 (fun _ => 0) superframe_id,
          restVolume (cellSlots 2) threeRcsts t superframe_id r.rcst_id = 0 ∨
            min (restVolume (cellSlots 2) threeRcsts t superframe_id r.rcst_id)
              (cellSlots 2).num_of_atm_per_slot.toNat = 2) := by
  have hok : (do
      let t ← scheduling_for_vbdc_and_avbdc (cellSlots 2) threeRcsts (2 ^ 18) (volumeRequest 4)
        ([], freshRecord 4)
      .ok (t.1.volume ⟨0, 1⟩) : Except SchedulerAbort Nat) = .ok 0 := by decide +kernel
  obtain ⟨t, ht, -⟩ := of_bind_eq_ok hok
  exact ⟨t, ht, @volume_paid_iff (cellSlots 2) threeRcsts (2 ^ 18) (volumeRequest 4)
    ([], freshRecord 4) t (fun _ => 0) (threeRcsts_inRange 2) List.nodup_nil ht⟩

set_option maxRecDepth 100000 in
/-- Slots of four cells: a free slot for an RCST with a volume of three cells takes off two. -/
theorem free_slot_underpaid :
    ∃ t u, scheduling_for_vbdc_and_avbdc (cellSlots 4) threeRcsts (2 ^ 18) (volumeRequest 3)
        ([], freshRecord 1) = .ok t ∧
      scheduling_for_fca_rr (cellSlots 4) threeRcsts (2 ^ 18) (t, fun _ => 0) = .ok u ∧
      t.1.volume ⟨0, 1⟩ = 3 ∧ t.2.givenSince u.1.2 ⟨0, 1⟩ = 1 ∧ u.1.1.volume ⟨0, 1⟩ = 1 ∧
      ¬ Paid (cellSlots 4) t u.1 := by
  have hok : (do
      let t ← scheduling_for_vbdc_and_avbdc (cellSlots 4) threeRcsts (2 ^ 18) (volumeRequest 3)
        ([], freshRecord 1)
      let u ← scheduling_for_fca_rr (cellSlots 4) threeRcsts (2 ^ 18) (t, fun _ => 0)
      .ok (t.1.volume ⟨0, 1⟩, t.2.givenSince u.1.2 ⟨0, 1⟩, u.1.1.volume ⟨0, 1⟩) :
        Except SchedulerAbort (Nat × Nat × Nat)) = .ok (3, 1, 1) := by decide +kernel
  obtain ⟨t, ht, hok⟩ := of_bind_eq_ok hok
  obtain ⟨u, hu, hok⟩ := of_bind_eq_ok hok
  obtain ⟨hbefore, hgiven, hafter⟩ : t.1.volume ⟨0, 1⟩ = 3 ∧
      t.2.givenSince u.1.2 ⟨0, 1⟩ = 1 ∧ u.1.1.volume ⟨0, 1⟩ = 1 := by
    simpa using Except.ok.inj hok
  refine ⟨t, u, ht, hu, hbefore, hgiven, hafter, fun hpaid => ?_⟩
  have h := hpaid ⟨0, 1⟩
  rw [hafter, hgiven, hbefore] at h
  exact absurd h (by decide)

end Dvb
