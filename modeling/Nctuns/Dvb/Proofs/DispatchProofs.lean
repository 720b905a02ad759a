import Nctuns.Dvb.Proofs.CreditProofs

/-!
# Proofs about the dispatching of volume

A round of the dispatching lifts every need of the superframe from one level to a higher one. Only a
round that grants single slots can stop half way, and then nothing is left; so the needs always lie
between two levels next to each other, and the shares are fair.
-/

namespace Dvb

open Outcome SlotAssignmentRecord TimeslotScheduler MaxMin

variable {B : Prop} {ncc : NccSlots} {rcst_infos : RcstInfoList} {superframe_id : UInt8}
  {q q' m : Nat} {need : SlotNeed} {l front back rest : List SlotNeed}

/-! ### Needs at a level -/

/-- The needs of a superframe. -/
def askingIn (superframe_id : UInt8) (l : List SlotNeed) : List SlotNeed :=
  l.filter fun need => need.superframe_id = superframe_id

theorem mem_askingIn : need ∈ askingIn superframe_id l ↔ need ∈ l ∧ need.superframe_id = superframe_id := by
  rw [askingIn, List.mem_filter, decide_eq_true_iff]

/-- The needs of a superframe, over an append. -/
@[simp] theorem askingIn_append (front back : List SlotNeed) : askingIn superframe_id (front ++ back) =
    askingIn superframe_id front ++ askingIn superframe_id back :=
  List.filter_append ..

/-- A need of the superframe asks in it. -/
theorem askingIn_singleton_of_eq (h : need.superframe_id = superframe_id) :
    askingIn superframe_id [need] = [need] :=
  List.filter_cons_of_pos (by simpa using h)

/-- A need of another superframe does not. -/
theorem askingIn_singleton_of_ne (h : ¬ need.superframe_id = superframe_id) :
    askingIn superframe_id [need] = [] :=
  List.filter_cons_of_neg (by simpa using h)

theorem demand_pos (h : need.num_slots_needed ≠ 0) : 0 < need.demand :=
  Nat.pos_of_ne_zero fun h0 => h (UInt16.toNat_inj.1 h0)

/-- What is left of a need that has got slots up to a level. -/
def SlotNeed.leftAt (superframe_id : UInt8) (q : Nat) (need : SlotNeed) : Option SlotNeed :=
  if need.superframe_id = superframe_id then
    if need.demand ≤ q then none
    else some { need with num_slots_needed := need.num_slots_needed - .ofNat q }
  else some need

/-- What the needs of a superframe lack after `q` slots each. -/
def lefts (superframe_id : UInt8) (q : Nat) (l : List SlotNeed) : List SlotNeed :=
  l.filterMap (SlotNeed.leftAt superframe_id q)

/-- The 16-bit subtraction of slots given does not wrap. -/
theorem demand_sub_ofNat (h : q ≤ need.demand) :
    (need.num_slots_needed - .ofNat q).toNat = need.demand - q := by
  have hlt := need.num_slots_needed.toNat_lt
  have hq : (UInt16.ofNat q).toNat = q := UInt16.toNat_ofNat_of_lt' (Nat.lt_of_le_of_lt h hlt)
  rw [UInt16.toNat_sub_of_le _ _ (by rw [UInt16.le_iff_toNat_le, hq]; exact h), hq]
  rfl

/-- Needs of other superframes stay as they are. -/
theorem leftAt_of_ne (h : ¬ need.superframe_id = superframe_id) :
    need.leftAt superframe_id q = some need :=
  if_neg h

/-- A need that the level covers is gone. -/
theorem leftAt_of_le (h : need.superframe_id = superframe_id) (hle : need.demand ≤ q) :
    need.leftAt superframe_id q = none := by
  rw [SlotNeed.leftAt, if_pos h, if_pos hle]

/-- A need above the level is left with the rest. -/
theorem leftAt_of_lt (h : need.superframe_id = superframe_id) (hlt : q < need.demand) :
    need.leftAt superframe_id q =
      some { need with num_slots_needed := need.num_slots_needed - .ofNat q } := by
  rw [SlotNeed.leftAt, if_pos h, if_neg (Nat.not_le.2 hlt)]

/-- At level zero nothing has been given. -/
theorem leftAt_zero (h : need.num_slots_needed ≠ 0) : need.leftAt superframe_id 0 = some need := by
  by_cases hid : need.superframe_id = superframe_id
  · rw [leftAt_of_lt hid (demand_pos h)]
    have hzero : need.num_slots_needed - .ofNat 0 = need.num_slots_needed := UInt16.sub_zero _
    rw [hzero]
  · exact leftAt_of_ne hid

/-- What is left of a need is a need of the same RCST. -/
theorem leftAt_eq_some {left : SlotNeed} (h0 : need.num_slots_needed ≠ 0)
    (h : need.leftAt superframe_id q = some left) :
    left.num_slots_needed ≠ 0 ∧ left.rcst_id = need.rcst_id ∧
      left.superframe_id = need.superframe_id := by
  by_cases hid : need.superframe_id = superframe_id
  · rcases Nat.lt_or_ge q need.demand with hlt | hle
    · rw [leftAt_of_lt hid hlt] at h
      obtain rfl := Option.some.inj h
      refine ⟨fun hz => ?_, rfl, rfl⟩
      have hsub := demand_sub_ofNat (Nat.le_of_lt hlt)
      rw [show need.num_slots_needed - .ofNat q = 0 from hz] at hsub
      have : (0 : UInt16).toNat = 0 := rfl
      omega
    · rw [leftAt_of_le hid hle] at h
      cases h
  · rw [leftAt_of_ne hid] at h
    obtain rfl := Option.some.inj h
    exact ⟨h0, rfl, rfl⟩

@[simp] theorem lefts_nil : lefts superframe_id q [] = [] := rfl

/-- What is left, over an append. -/
@[simp] theorem lefts_append : lefts superframe_id q (front ++ back) =
    lefts superframe_id q front ++ lefts superframe_id q back :=
  List.filterMap_append

/-- At level zero every need is left. -/
theorem lefts_zero (h : ∀ need ∈ l, need.num_slots_needed ≠ 0) : lefts superframe_id 0 l = l := by
  induction l with
  | nil => rfl
  | cons need l ih =>
    rw [lefts, List.filterMap_cons_some (leftAt_zero (h need List.mem_cons_self))]
    exact congrArg _ (ih fun need hneed => h need (List.mem_cons_of_mem _ hneed))

/-- The terminals that are left stand in their old order. -/
theorem ids_lefts (h : ∀ need ∈ l, need.num_slots_needed ≠ 0) :
    ((lefts superframe_id q l).map SlotNeed.rcst_id).Sublist (l.map SlotNeed.rcst_id) := by
  induction l with
  | nil => exact List.Sublist.refl _
  | cons need l ih =>
    have hrest := ih fun need hneed => h need (List.mem_cons_of_mem _ hneed)
    cases hleft : need.leftAt superframe_id q with
    | none =>
      rw [lefts, List.filterMap_cons_none hleft]
      exact hrest.cons _
    | some left =>
      rw [lefts, List.filterMap_cons_some hleft, List.map_cons, List.map_cons,
        (leftAt_eq_some (h need List.mem_cons_self) hleft).2.1]
      exact hrest.cons_cons _

/-- The needs of other superframes stay. -/
theorem askingIn_lefts {s : UInt8} (h : ∀ need ∈ l, need.num_slots_needed ≠ 0)
    (hs : s ≠ superframe_id) : askingIn s (lefts superframe_id q l) = askingIn s l := by
  induction l with
  | nil => rfl
  | cons need l ih =>
    have hrest := ih fun need hneed => h need (List.mem_cons_of_mem _ hneed)
    by_cases hid : need.superframe_id = superframe_id
    · have hneg : ¬ need.superframe_id = s := fun h' => hs (h'.symm.trans hid)
      have hcons : askingIn s (need :: l) = askingIn s l := List.filter_cons_of_neg (by simpa using hneg)
      rw [hcons]
      cases hleft : need.leftAt superframe_id q with
      | none =>
        rw [lefts, List.filterMap_cons_none hleft]
        exact hrest
      | some left =>
        have hsid := (leftAt_eq_some (h need List.mem_cons_self) hleft).2.2
        rw [lefts, List.filterMap_cons_some hleft, askingIn,
          List.filter_cons_of_neg (by rw [hsid]; simpa using hneg)]
        exact hrest
    · rw [lefts, List.filterMap_cons_some (leftAt_of_ne hid)]
      show askingIn s ([need] ++ lefts superframe_id q l) = askingIn s ([need] ++ l)
      rw [askingIn_append, askingIn_append, hrest]

/-- Somebody still asks when some demand is above the level. -/
theorem needsIn_lefts_pos (h : ∀ need ∈ l, need.num_slots_needed ≠ 0) :
    0 < needsIn superframe_id (lefts superframe_id q l) ↔
      ∃ need ∈ askingIn superframe_id l, q < need.demand := by
  unfold needsIn
  rw [List.countP_pos_iff]
  constructor
  · rintro ⟨left, hleft, hid⟩
    obtain ⟨need, hneed, heq⟩ := List.mem_filterMap.1 hleft
    have hsid : need.superframe_id = superframe_id := by
      rw [← (leftAt_eq_some (h need hneed) heq).2.2]
      simpa using hid
    refine ⟨need, mem_askingIn.2 ⟨hneed, hsid⟩, ?_⟩
    by_contra hle
    rw [leftAt_of_le hsid (Nat.not_lt.1 hle)] at heq
    cases heq
  · rintro ⟨need, hneed, hlt⟩
    obtain ⟨hneed, hid⟩ := mem_askingIn.1 hneed
    exact ⟨_, List.mem_filterMap.2 ⟨need, hneed, leftAt_of_lt hid hlt⟩, by simpa using hid⟩

/-! ### A round -/

/-- A round that lifts the needs of a superframe from the level `q` to `q'`: those in front have
    been seen, and `rest` is still to come. The slots are counted since the pass began in `s`, and
    the superframe began in `s₁` with `got₁`. -/
structure Round (B : Prop) (ncc : NccSlots) (s s₁ : RcstCredit × SlotAssignmentRecord)
    (superframe_id : UInt8) (got₁ : RcstId → Nat) (q q' : Nat) (front back rest : List SlotNeed)
    (d : Dispatch) (got : RcstId → Nat) : Prop where
  ledger : Ledger B ncc s got (d.credits, d.record)
  amount : d.amount = (d.record.num_residual_slot .SLOT_TYPE_DATA superframe_id).toNat
  needs : d.needs ++ rest = lefts superframe_id q' front ++ lefts superframe_id q back
  need_cnt : d.need_cnt = needsIn superframe_id (d.needs ++ rest)
  spent : d.amount + poured SlotNeed.demand q' (askingIn superframe_id front) +
    poured SlotNeed.demand q (askingIn superframe_id back) =
      (s₁.2.num_residual_slot .SLOT_TYPE_DATA superframe_id).toNat
  got_front : ∀ need ∈ askingIn superframe_id front, got need.rcst_id = min need.demand q'
  got_back : ∀ need ∈ askingIn superframe_id back, got need.rcst_id = min need.demand q
  frame : ∀ id, (∀ need ∈ askingIn superframe_id (front ++ back), need.rcst_id ≠ id) → got id = got₁ id
  others : ∀ s ≠ superframe_id, d.record.num_residual_slot .SLOT_TYPE_DATA s =
    s₁.2.num_residual_slot .SLOT_TYPE_DATA s

/-- The grant to the need in front of a round. -/
theorem grantRound_grant {d : Dispatch} (hsid : superframe_id ≤ MAX_SUPERFRAME_ID)
    (hid : need.superframe_id = superframe_id) (hneed : need.num_slots_needed ≠ 0)
    (hamount : d.amount = (d.record.num_residual_slot .SLOT_TYPE_DATA superframe_id).toNat)
    (hstop : ¬ (d.amount = 0 ∨ d.need_cnt = 0)) (hle : min need.demand m ≤ d.amount) :
    grantRound ncc superframe_id m (need :: l) d =
      grantRound ncc superframe_id m l
        { needs := if need.num_slots_needed - .ofNat (min need.demand m) = 0 then d.needs
            else d.needs ++ [{ need with
              num_slots_needed := need.num_slots_needed - .ofNat (min need.demand m) }]
          record := d.record.counted superframe_id need.rcst_id (.ofNat (min need.demand m))
          credits := d.credits.decrease_credit_value need.rcst_id .VB_CREDIT
            (UInt32.ofNat (min need.demand m) * ncc.num_of_atm_per_slot.toUInt32).toUInt64
          amount := d.amount - min need.demand m
          need_cnt := if need.num_slots_needed - .ofNat (min need.demand m) = 0
            then d.need_cnt - 1 else d.need_cnt } := by
  have hgrant : (if need.num_slots_needed.toNat > m then m else need.num_slots_needed.toNat) =
      min need.demand m := by
    unfold SlotNeed.demand
    split <;> omega
  have hslots : UInt16.ofNat (min need.demand m) ≤
      d.record.num_residual_slot .SLOT_TYPE_DATA superframe_id := by
    have hlt := need.num_slots_needed.toNat_lt
    have hdemand : min need.demand m ≤ need.num_slots_needed.toNat := Nat.min_le_left ..
    rw [UInt16.le_iff_toNat_le, UInt16.toNat_ofNat_of_lt' (Nat.lt_of_le_of_lt hdemand hlt), ← hamount]
    exact hle
  rw [grantRound, if_pos hid, if_neg hstop, if_neg hneed, hgrant]
  dsimp only
  rw [add_num_slot_of_le hsid hslots, bind_ok, if_neg (not_not.2 hle)]

/-- The volume of a grant does not wrap. -/
theorem value_of_grant {grant : Nat} (n : UInt16) (h : grant < 2 ^ 16) :
    (UInt32.ofNat grant * n.toUInt32).toUInt64.toNat = grant * n.toNat := by
  have hn := n.toNat_lt
  have hmul : grant * n.toNat < 2 ^ 16 * 2 ^ 16 :=
    Nat.mul_lt_mul_of_lt_of_lt h hn
  have hgrant : (UInt32.ofNat grant).toNat = grant := UInt32.toNat_ofNat_of_lt' (by
    show grant < 2 ^ 32
    omega)
  rw [UInt32.toNat_toUInt64, UInt32.toNat_mul, hgrant, UInt16.toNat_toUInt32]
  exact Nat.mod_eq_of_lt (by omega)

section Round

variable {s s₁ : RcstCredit × SlotAssignmentRecord} {got₁ got : RcstId → Nat} {d : Dispatch}

/-- A need of another superframe is passed over. -/
theorem Round.skip_other (h : Round B ncc s s₁ superframe_id got₁ q q' front (need :: back)
    (need :: lefts superframe_id q back) d got) (hid : ¬ need.superframe_id = superframe_id) :
    Round B ncc s s₁ superframe_id got₁ q q' (front ++ [need]) back (lefts superframe_id q back)
      { d with needs := d.needs ++ [need] } got := by
  have hback : askingIn superframe_id (need :: back) = askingIn superframe_id back :=
    List.filter_cons_of_neg (by simpa using hid)
  have hfront : askingIn superframe_id (front ++ [need]) = askingIn superframe_id front := by
    rw [askingIn_append, askingIn_singleton_of_ne hid, List.append_nil]
  have hleft : lefts superframe_id q' [need] = [need] :=
    List.filterMap_cons_some (leftAt_of_ne hid)
  have hlefts : lefts superframe_id q (need :: back) = need :: lefts superframe_id q back :=
    List.filterMap_cons_some (leftAt_of_ne hid)
  have hneeds := h.needs
  rw [hlefts] at hneeds
  exact
    { ledger := h.ledger
      amount := h.amount
      needs := by
        rw [lefts_append, hleft, List.append_assoc, List.append_assoc]
        exact hneeds
      need_cnt := by
        rw [List.append_assoc]
        exact h.need_cnt
      spent := by
        rw [hfront, ← hback]
        exact h.spent
      got_front := fun x hx => h.got_front x (hfront ▸ hx)
      got_back := fun x hx => h.got_back x (hback.symm ▸ hx)
      frame := fun id hno => h.frame id (by rwa [List.append_assoc] at hno)
      others := h.others }

/-- A need that is met already has no entry any more. -/
theorem Round.skip_met (h : Round B ncc s s₁ superframe_id got₁ q q' front (need :: back)
    (lefts superframe_id q back) d got) (hid : need.superframe_id = superframe_id)
    (hmet : need.demand ≤ q) (hq : q ≤ q') :
    Round B ncc s s₁ superframe_id got₁ q q' (front ++ [need]) back (lefts superframe_id q back)
      d got := by
  have hback : askingIn superframe_id (need :: back) = need :: askingIn superframe_id back :=
    List.filter_cons_of_pos (by simpa using hid)
  have hfront : askingIn superframe_id (front ++ [need]) = askingIn superframe_id front ++ [need] := by
    rw [askingIn_append, askingIn_singleton_of_eq hid]
  have hlefts' : lefts superframe_id q' [need] = [] :=
    List.filterMap_cons_none (leftAt_of_le hid (Nat.le_trans hmet hq))
  have hlefts : lefts superframe_id q (need :: back) = lefts superframe_id q back :=
    List.filterMap_cons_none (leftAt_of_le hid hmet)
  have hmin : min need.demand q' = min need.demand q := by omega
  have hneeds := h.needs
  rw [hlefts] at hneeds
  have hspent := h.spent
  rw [hback, poured_cons] at hspent
  exact
    { ledger := h.ledger
      amount := h.amount
      needs := by
        rw [lefts_append, hlefts', List.append_nil]
        exact hneeds
      need_cnt := h.need_cnt
      spent := by
        rw [hfront, poured_append, poured_cons, poured_nil, hmin]
        omega
      got_front := by
        intro x hx
        rw [hfront, List.mem_append, List.mem_singleton] at hx
        rcases hx with hx | rfl
        · exact h.got_front x hx
        · rw [hmin]
          exact h.got_back x (hback ▸ List.mem_cons_self)
      got_back := fun x hx => h.got_back x (hback ▸ List.mem_cons_of_mem _ hx)
      frame := fun id hno => h.frame id (by rwa [List.append_assoc] at hno)
      others := h.others }

/-- A grant lifts the need to the level of the round. -/
theorem Round.grant (h : Round B ncc s s₁ superframe_id got₁ q (q + m) front (need :: back)
    ({ need with num_slots_needed := need.num_slots_needed - .ofNat q } ::
      lefts superframe_id q back) d got)
    (hid : need.superframe_id = superframe_id) (hlt : q < need.demand)
    (hle : min (need.demand - q) m ≤ d.amount)
    (hnd : ((front ++ need :: back).map SlotNeed.rcst_id).Nodup)
    (hcovered : B → need.demand * ncc.num_of_atm_per_slot.toNat ≤ s.1.volume need.rcst_id)
    {left : UInt16}
    (hleft : left = need.num_slots_needed - .ofNat q - .ofNat (min (need.demand - q) m)) :
    Round B ncc s s₁ superframe_id got₁ q (q + m) (front ++ [need]) back
      (lefts superframe_id q back)
      { needs := if left = 0 then d.needs
          else d.needs ++ [{ need with num_slots_needed := left }]
        record := d.record.counted superframe_id need.rcst_id (.ofNat (min (need.demand - q) m))
        credits := d.credits.decrease_credit_value need.rcst_id .VB_CREDIT
          (UInt32.ofNat (min (need.demand - q) m) * ncc.num_of_atm_per_slot.toUInt32).toUInt64
        amount := d.amount - min (need.demand - q) m
        need_cnt := if left = 0 then d.need_cnt - 1 else d.need_cnt }
      (Function.update got need.rcst_id (got need.rcst_id + min (need.demand - q) m)) := by
  have hback : askingIn superframe_id (need :: back) = need :: askingIn superframe_id back :=
    List.filter_cons_of_pos (by simpa using hid)
  have hfront : askingIn superframe_id (front ++ [need]) = askingIn superframe_id front ++ [need] := by
    rw [askingIn_append, askingIn_singleton_of_eq hid]
  have hgot : got need.rcst_id = min need.demand q := h.got_back need (hback ▸ List.mem_cons_self)
  have hnew : got need.rcst_id + min (need.demand - q) m = min need.demand (q + m) := by omega
  have hother : ∀ x ∈ front ++ back, x.rcst_id ≠ need.rcst_id := by
    intro x hx heq
    rw [List.map_append, List.map_cons, List.nodup_middle, ← List.map_append] at hnd
    exact (List.nodup_cons.1 hnd).1 (List.mem_map.2 ⟨x, hx, heq⟩)
  have hnum := demand_sub_ofNat (Nat.le_of_lt hlt)
  have hlt16 : need.demand < 2 ^ 16 := need.num_slots_needed.toNat_lt
  have hgrant : (UInt16.ofNat (min (need.demand - q) m)).toNat = min (need.demand - q) m :=
    UInt16.toNat_ofNat_of_lt' (show _ < 2 ^ 16 by omega)
  have hleftNat : left.toNat = need.demand - (q + m) := by
    rw [hleft, UInt16.toNat_sub_of_le _ _ (by
      rw [UInt16.le_iff_toNat_le, hgrant, hnum]
      exact Nat.min_le_left ..), hnum, hgrant]
    omega
  have hzero : left = 0 ↔ need.demand ≤ q + m := by
    rw [← UInt16.toNat_inj, hleftNat, show (0 : UInt16).toNat = 0 from rfl]
    omega
  have hneeds := h.needs
  rw [lefts, lefts, lefts, List.filterMap_cons_some (leftAt_of_lt hid hlt)] at hneeds
  have hdneeds : d.needs = lefts superframe_id (q + m) front := List.append_cancel_right hneeds
  have hcnt := h.need_cnt
  rw [needsIn_append, needsIn_cons_of_eq (by exact hid)] at hcnt
  have hspent := h.spent
  rw [hback, poured_cons] at hspent
  exact
    { ledger := h.ledger.grant superframe_id need.rcst_id (value_of_grant _ (by omega)) fun hB => by
        have hcov := hcovered hB
        rw [hnew]
        exact Nat.le_trans (Nat.mul_le_mul_right _ (Nat.min_le_left ..)) hcov
      amount := by
        have hamount := h.amount
        show d.amount - _ = _
        rw [counted_residual, UInt16.toNat_sub_of_le _ _ (by
          rw [UInt16.le_iff_toNat_le, hgrant, ← hamount]
          exact hle), hgrant, ← hamount]
      needs := by
        have happend : lefts superframe_id (q + m) (front ++ [need]) =
            if left = 0 then d.needs
            else d.needs ++ [{ need with num_slots_needed := left }] := by
          rw [lefts_append, hdneeds]
          by_cases h0 : left = 0
          · rw [if_pos h0]
            have hnone : lefts superframe_id (q + m) [need] = [] :=
              List.filterMap_cons_none (leftAt_of_le hid (hzero.1 h0))
            rw [hnone, List.append_nil]
          · rw [if_neg h0]
            have hgt : q + m < need.demand := Nat.not_le.1 fun hge => h0 (hzero.2 hge)
            have heq : need.num_slots_needed - .ofNat (q + m) = left := by
              rw [← UInt16.toNat_inj, hleftNat]
              exact demand_sub_ofNat (Nat.le_of_lt hgt)
            have hsome : lefts superframe_id (q + m) [need] =
                [{ need with num_slots_needed := left }] := by
              rw [← heq]
              exact List.filterMap_cons_some (leftAt_of_lt hid hgt)
            rw [hsome]
        rw [happend]
      need_cnt := by
        dsimp only
        by_cases h0 : left = 0
        · rw [if_pos h0, if_pos h0, needsIn_append, hcnt]
          rfl
        · rw [if_neg h0, if_neg h0, List.append_assoc, needsIn_append, List.singleton_append,
            needsIn_cons_of_eq (by exact hid), hcnt]
      spent := by
        rw [hfront, poured_append, poured_cons, poured_nil]
        show d.amount - _ + _ + _ = _
        omega
      got_front := by
        intro x hx
        rw [hfront, List.mem_append, List.mem_singleton] at hx
        rcases hx with hx | rfl
        · rw [Function.update_of_ne
            (hother x (List.mem_append_left _ (mem_askingIn.1 hx).1))]
          exact h.got_front x hx
        · rw [Function.update_self, hnew]
      got_back := by
        intro x hx
        rw [Function.update_of_ne (hother x (List.mem_append_right _ (mem_askingIn.1 hx).1))]
        exact h.got_back x (hback ▸ List.mem_cons_of_mem _ hx)
      frame := by
        intro id hno
        rw [List.append_assoc] at hno
        have hne : need.rcst_id ≠ id :=
          hno need (mem_askingIn.2 ⟨List.mem_append_right _ List.mem_cons_self, hid⟩)
        rw [Function.update_of_ne hne.symm]
        exact h.frame id hno
      others := fun s' hs' => (counted_residual_of_ne hs').trans (h.others s' hs') }

/-- The round stops, with the needs that are still to come left as they are. -/
theorem Round.stop (h : Round B ncc s s₁ superframe_id got₁ q q' front back rest d got) :
    Round B ncc s s₁ superframe_id got₁ q q' front back [] { d with needs := d.needs ++ rest }
      got where
  ledger := h.ledger
  amount := h.amount
  needs := (List.append_nil _).trans h.needs
  need_cnt := by
    rw [List.append_nil]
    exact h.need_cnt
  spent := h.spent
  got_front := h.got_front
  got_back := h.got_back
  frame := h.frame
  others := h.others

/-- **Step lemma.** A round lifts all the needs of the superframe, or it grants single slots and
    ends with none left. -/
theorem grantRound_round (front back : List SlotNeed) (hsid : superframe_id ≤ MAX_SUPERFRAME_ID)
    (hm : 0 < m)
    (h : Round B ncc s s₁ superframe_id got₁ q (q + m) front back (lefts superframe_id q back) d got)
    (hnd : ((front ++ back).map SlotNeed.rcst_id).Nodup)
    (hcovered : B → ∀ need ∈ askingIn superframe_id back,
      need.demand * ncc.num_of_atm_per_slot.toNat ≤ s.1.volume need.rcst_id)
    (henough : m = 1 ∨ needsIn superframe_id (lefts superframe_id q back) * m ≤ d.amount) :
    ∃ front' back' d' got', front' ++ back' = front ++ back ∧
      grantRound ncc superframe_id m (lefts superframe_id q back) d = .ok d' ∧
      Round B ncc s s₁ superframe_id got₁ q (q + m) front' back' [] d' got' ∧
      (back' = [] ∨ m = 1 ∧ d'.amount = 0) := by
  induction back generalizing front d got with
  | nil => exact ⟨front, [], d, got, rfl, rfl, h, .inl rfl⟩
  | cons need back ih =>
    have hcov : B → ∀ x ∈ askingIn superframe_id back,
        x.demand * ncc.num_of_atm_per_slot.toNat ≤ s.1.volume x.rcst_id := by
      intro hB x hx
      obtain ⟨hmem, hxid⟩ := mem_askingIn.1 hx
      exact hcovered hB x (mem_askingIn.2 ⟨List.mem_cons_of_mem _ hmem, hxid⟩)
    have happend : (front ++ [need]) ++ back = front ++ need :: back := by
      rw [List.append_assoc, List.singleton_append]
    rw [← happend] at hnd
    by_cases hid : need.superframe_id = superframe_id
    · rcases Nat.lt_or_ge q need.demand with hlt | hmet
      · -- the need still wants something
        have hlefts : lefts superframe_id q (need :: back) =
            { need with num_slots_needed := need.num_slots_needed - .ofNat q } ::
              lefts superframe_id q back :=
          List.filterMap_cons_some (leftAt_of_lt hid hlt)
        have hcnt := h.need_cnt
        rw [hlefts, needsIn_append, needsIn_cons_of_eq (by exact hid)] at hcnt
        rw [hlefts, needsIn_cons_of_eq (by exact hid)] at henough
        have hnum := demand_sub_ofNat (Nat.le_of_lt hlt)
        by_cases hzero : d.amount = 0
        · have hm1 : m = 1 := by
            rcases henough with h1 | hmul
            · exact h1
            · rw [hzero, Nat.succ_mul] at hmul
              omega
          refine ⟨front, need :: back, _, got, rfl, ?_, h.stop, .inr ⟨hm1, hzero⟩⟩
          rw [hlefts, grantRound, if_pos (by exact hid), if_pos (.inl hzero)]
        · have hle : min (need.demand - q) m ≤ d.amount := by
            rcases henough with h1 | hmul
            · omega
            · rw [Nat.succ_mul] at hmul
              omega
          have hdemand : SlotNeed.demand
              { need with num_slots_needed := need.num_slots_needed - .ofNat q } =
                need.demand - q := hnum
          have hne : need.num_slots_needed - .ofNat q ≠ 0 := by
            intro h0
            rw [h0, show (0 : UInt16).toNat = 0 from rfl] at hnum
            omega
          have hstep := @grantRound_grant ncc superframe_id m
            { need with num_slots_needed := need.num_slots_needed - .ofNat q }
            (lefts superframe_id q back) d hsid hid hne h.amount (by omega)
            (by rw [hdemand]; exact hle)
          rw [hdemand] at hstep
          rw [hlefts] at h ⊢
          have hnext := h.grant hid hlt hle (happend ▸ hnd)
            (fun hB => hcovered hB need (mem_askingIn.2 ⟨List.mem_cons_self, hid⟩)) rfl
          rw [hstep]
          obtain ⟨front', back', d', got', heq, hrest⟩ := ih (front ++ [need]) hnext hnd hcov (by
            refine henough.imp_right fun hmul => ?_
            rw [Nat.succ_mul] at hmul
            show _ ≤ d.amount - _
            omega)
          exact ⟨front', back', d', got', heq.trans happend, hrest⟩
      · have hlefts : lefts superframe_id q (need :: back) = lefts superframe_id q back :=
          List.filterMap_cons_none (leftAt_of_le hid hmet)
        rw [hlefts] at h henough ⊢
        obtain ⟨front', back', d', got', heq, hrest⟩ :=
          ih (front ++ [need]) (h.skip_met hid hmet (Nat.le_add_right ..)) hnd hcov henough
        exact ⟨front', back', d', got', heq.trans happend, hrest⟩
    · have hlefts : lefts superframe_id q (need :: back) = need :: lefts superframe_id q back :=
        List.filterMap_cons_some (leftAt_of_ne hid)
      rw [hlefts] at h henough ⊢
      rw [needsIn_cons_of_ne hid] at henough
      rw [grantRound, if_neg hid]
      obtain ⟨front', back', d', got', heq, hrest⟩ :=
        ih (front ++ [need]) (h.skip_other hid) hnd hcov henough
      exact ⟨front', back', d', got', heq.trans happend, hrest⟩

/-- Between two rounds: the needs in front are one level higher than the others, and then nothing is
    left. -/
def Rests (B : Prop) (ncc : NccSlots) (s s₁ : RcstCredit × SlotAssignmentRecord)
    (superframe_id : UInt8) (got₁ : RcstId → Nat) (l : List SlotNeed) (d : Dispatch) : Prop :=
  ∃ q front back got, front ++ back = l ∧
    Round B ncc s s₁ superframe_id got₁ q (q + 1) front back [] d got ∧
    (front = [] ∨ d.amount = 0)

/-- A level that all needs have reached is the lower one of the next round. -/
theorem Round.rests (h : Round B ncc s s₁ superframe_id got₁ q q' l [] [] d got) :
    Rests B ncc s s₁ superframe_id got₁ l d :=
  ⟨q', [], l, got, rfl,
    { ledger := h.ledger
      amount := h.amount
      needs := by simpa using h.needs
      need_cnt := h.need_cnt
      spent := by simpa [askingIn] using h.spent
      got_front := fun _ hx => absurd hx List.not_mem_nil
      got_back := h.got_front
      frame := fun id hno => h.frame id (by simpa using hno)
      others := h.others }, .inl rfl⟩

/-- **Step lemma.** -/
theorem dispatchRound_rests (hsid : superframe_id ≤ MAX_SUPERFRAME_ID)
    (hnz : ∀ need ∈ l, need.num_slots_needed ≠ 0) (hnd : (l.map SlotNeed.rcst_id).Nodup)
    (hcovered : B → ∀ need ∈ askingIn superframe_id l,
      need.demand * ncc.num_of_atm_per_slot.toNat ≤ s.1.volume need.rcst_id)
    (d : Dispatch) (h : Rests B ncc s s₁ superframe_id got₁ l d) :
    Ends (fun _ => False) (fun t => if t.1 then Rests B ncc s s₁ superframe_id got₁ l t.2 ∧
        (¬ False → t.2.amount < d.amount)
      else Rests B ncc s s₁ superframe_id got₁ l t.2 ∧ (t.2.need_cnt = 0 ∨ t.2.amount = 0))
      (dispatchRound ncc superframe_id d) := by
  unfold dispatchRound
  split
  next hpos =>
    obtain ⟨q, front, back, got, hl, hround, hfront⟩ := h
    obtain rfl : front = [] := hfront.resolve_right (by omega)
    obtain rfl : back = l := hl
    have hdneeds : d.needs = lefts superframe_id q back := by
      simpa using hround.needs
    have hcnt : d.need_cnt = needsIn superframe_id (lefts superframe_id q back) := by
      rw [hround.need_cnt, List.append_nil, hdneeds]
    dsimp only
    generalize hm : (if d.amount / d.need_cnt = 0 then 1 else d.amount / d.need_cnt) = m
    have hleast : 0 < m ∧ (m = 1 ∨ needsIn superframe_id (lefts superframe_id q back) * m ≤
        d.amount) := by
      rw [← hm]
      split
      · exact ⟨Nat.one_pos, .inl rfl⟩
      next h0 => exact ⟨Nat.pos_of_ne_zero h0, .inr (by rw [← hcnt]; exact Nat.mul_div_le _ _)⟩
    have hstart : Round B ncc s s₁ superframe_id got₁ q (q + m) [] back
        (lefts superframe_id q back) { d with needs := [] } got :=
      { ledger := hround.ledger
        amount := hround.amount
        needs := rfl
        need_cnt := hcnt
        spent := hround.spent
        got_front := fun _ hx => absurd hx List.not_mem_nil
        got_back := hround.got_back
        frame := hround.frame
        others := hround.others }
    obtain ⟨front', back', d', got', heq, hrun, hend, hstop⟩ :=
      grantRound_round [] back hsid hleast.1 hstart hnd hcovered hleast.2
    rw [hdneeds, hrun]
    -- a need above the level takes part in what is poured
    obtain ⟨need, hneed, hlt⟩ := (needsIn_lefts_pos hnz).1 (hcnt ▸ hpos.1)
    have hmore := poured_lt hneed hlt (Nat.lt_add_of_pos_right hleast.1)
    have hbefore := hround.spent
    rcases hstop with rfl | ⟨rfl, hzero⟩
    · rw [List.append_nil] at heq
      rw [heq] at hend
      refine Ends.ok ⟨hend.rests, fun _ => ?_⟩
      have hafter := hend.spent
      have hnil : askingIn superframe_id [] = [] := rfl
      rw [hnil, poured_nil] at hafter hbefore
      rw [List.nil_append] at hafter
      show d'.amount < d.amount
      omega
    · refine Ends.ok ⟨⟨q, front', back', got', heq, hend, .inr hzero⟩, fun _ => ?_⟩
      rw [hzero]
      exact hpos.2
  next hstop =>
    have hzero : d.need_cnt = 0 ∨ d.amount = 0 := by omega
    exact Ends.ok ⟨h, hzero⟩

end Round

/-! ### A superframe -/

/-- A superframe is dealt with: what is left of it has gone to the needs, up to a level. -/
structure VolumeSettled (got : RcstId → Nat) (before after : SlotAssignmentRecord) (superframe_id : UInt8)
    (l : List SlotNeed) : Prop where
  spent : (after.num_residual_slot .SLOT_TYPE_DATA superframe_id).toNat +
    (l.map fun need => got need.rcst_id).sum =
      (before.num_residual_slot .SLOT_TYPE_DATA superframe_id).toNat
  stopped : after.num_residual_slot .SLOT_TYPE_DATA superframe_id = 0 ∨
    ∀ need ∈ l, got need.rcst_id = need.demand
  levelled : ∃ q, Levelled SlotNeed.demand (fun need => got need.rcst_id) q l

/-- What the terminals got is what the level pours. -/
theorem sum_got {got : RcstId → Nat} (h : ∀ need ∈ l, got need.rcst_id = min need.demand q) :
    (l.map fun need => got need.rcst_id).sum = poured SlotNeed.demand q l :=
  congrArg List.sum (List.map_congr_left h)

/-- A round that ends with no need or no slot left has shared the slots out. -/
theorem Round.settled {s s₁ : RcstCredit × SlotAssignmentRecord} {got₁ got : RcstId → Nat}
    {d : Dispatch}
    (h : Round B ncc s s₁ superframe_id got₁ q (q + 1) front back [] d got)
    (hnz : ∀ need ∈ front ++ back, need.num_slots_needed ≠ 0)
    (hstop : d.need_cnt = 0 ∨ d.amount = 0) :
    VolumeSettled got s₁.2 d.record superframe_id (askingIn superframe_id (front ++ back)) where
  spent := by
    have hspent := h.spent
    rw [askingIn_append, List.map_append, List.sum_append, sum_got h.got_front, sum_got h.got_back,
      ← h.amount]
    omega
  stopped := by
    rcases hstop with hcnt | hzero
    · right
      rw [h.need_cnt, h.needs, needsIn_append] at hcnt
      have hfront : ∀ need ∈ askingIn superframe_id front, need.demand ≤ q + 1 := by
        intro need hneed
        by_contra hlt
        have hpos := (needsIn_lefts_pos fun x hx => hnz x (List.mem_append_left _ hx)).2
          ⟨need, hneed, Nat.not_le.1 hlt⟩
        omega
      have hback : ∀ need ∈ askingIn superframe_id back, need.demand ≤ q := by
        intro need hneed
        by_contra hlt
        have hpos := (needsIn_lefts_pos fun x hx => hnz x (List.mem_append_right _ hx)).2
          ⟨need, hneed, Nat.not_le.1 hlt⟩
        omega
      intro need hneed
      rw [askingIn_append, List.mem_append] at hneed
      rcases hneed with hneed | hneed
      · rw [h.got_front need hneed, Nat.min_eq_left (hfront need hneed)]
      · rw [h.got_back need hneed, Nat.min_eq_left (hback need hneed)]
    · left
      rw [h.amount] at hzero
      exact UInt16.toNat_inj.1 hzero
  levelled := by
    refine ⟨q, fun need hneed => ?_⟩
    rw [askingIn_append, List.mem_append] at hneed
    dsimp only
    rcases hneed with hneed | hneed
    · rw [h.got_front need hneed]
      omega
    · rw [h.got_back need hneed]
      omega

/-- A need that is left is of a known terminal when all needs were. -/
theorem known_of_lefts {left : SlotNeed} (h : ∀ need ∈ l, Known rcst_infos need)
    (hleft : left ∈ lefts superframe_id q l) : Known rcst_infos left := by
  obtain ⟨need, hneed, heq⟩ := List.mem_filterMap.1 hleft
  obtain ⟨hnz, r, hr, hrid, hrsid⟩ := h need hneed
  obtain ⟨hnz', hid, hsid⟩ := leftAt_eq_some hnz heq
  exact ⟨hnz', r, hr, hid ▸ hrid, hsid ▸ hrsid⟩

/-- What is left of the needs, where those in front have got to a level of their own. -/
def Demands.atLevels (demands : Demands rcst_infos) (superframe_id : UInt8) (q q' : Nat)
    (front back : List SlotNeed) (h : front ++ back = demands.needs) : Demands rcst_infos where
  needs := lefts superframe_id q' front ++ lefts superframe_id q back
  known := by
    intro need hneed
    have hknown := demands.known
    rw [← h] at hknown
    rcases List.mem_append.1 hneed with hneed | hneed
    · exact known_of_lefts (fun x hx => hknown x (List.mem_append_left _ hx)) hneed
    · exact known_of_lefts (fun x hx => hknown x (List.mem_append_right _ hx)) hneed
  distinct := by
    have hknown := demands.known
    have hnd := demands.distinct
    rw [← h] at hknown hnd
    rw [List.map_append] at hnd ⊢
    refine (List.Sublist.append ?_ ?_).nodup hnd
    · exact ids_lefts fun x hx => (hknown x (List.mem_append_left _ hx)).1
    · exact ids_lefts fun x hx => (hknown x (List.mem_append_right _ hx)).1

/-- Serving one superframe leaves the demands in the others. -/
theorem Demands.asking_atLevels (demands : Demands rcst_infos) {s : UInt8}
    (h : front ++ back = demands.needs) (hs : s ≠ superframe_id) :
    (demands.atLevels superframe_id q q' front back h).asking s = demands.asking s := by
  have hknown := demands.known
  show askingIn s (_ ++ _) = askingIn s demands.needs
  rw [← h] at hknown ⊢
  rw [askingIn_append, askingIn_append,
    askingIn_lefts (fun x hx => (hknown x (List.mem_append_left _ hx)).1) hs,
    askingIn_lefts (fun x hx => (hknown x (List.mem_append_right _ hx)).1) hs]

/-- **Spec lemma.** One superframe: it is settled, and nothing else changes. -/
theorem dispatch_settles {fuel : Nat} {s t : RcstCredit × SlotAssignmentRecord}
    {got : RcstId → Nat} (hsid : superframe_id ≤ MAX_SUPERFRAME_ID) (hfuel : 2 ^ 16 ≤ fuel)
    (demands : Demands rcst_infos) (hledger : Ledger B ncc s got t)
    (hzero : ∀ need ∈ demands.asking superframe_id, got need.rcst_id = 0)
    (hcovered : B → ∀ need ∈ demands.asking superframe_id,
      need.demand * ncc.num_of_atm_per_slot.toNat ≤ s.1.volume need.rcst_id) :
    ∃ (demands' : Demands rcst_infos) (t' : RcstCredit × SlotAssignmentRecord) (got' : RcstId → Nat),
      dispatch ncc rcst_infos fuel superframe_id (demands.needs, t) = .ok (demands'.needs, t') ∧
      Ledger B ncc s got' t' ∧ VolumeSettled got' t.2 t'.2 superframe_id (demands.asking superframe_id) ∧
      (∀ s ≠ superframe_id, demands'.asking s = demands.asking s ∧
        t'.2.num_residual_slot .SLOT_TYPE_DATA s = t.2.num_residual_slot .SLOT_TYPE_DATA s) ∧
      ∀ id, (∀ need ∈ demands.asking superframe_id, need.rcst_id ≠ id) → got' id = got id := by
  unfold dispatch
  split
  next hno =>
    have hnone : demands.asking superframe_id = [] := by
      refine List.filter_eq_nil_iff.2 fun need hneed hid => ?_
      obtain ⟨-, r, hr, -, hrsid⟩ := demands.known need hneed
      have hpos := List.countP_eq_zero.1 hno r hr
      rw [hrsid] at hpos
      exact hpos hid
    refine ⟨demands, t, got, rfl, hledger, ?_, fun _ _ => ⟨rfl, rfl⟩, fun _ _ => rfl⟩
    rw [hnone]
    exact ⟨rfl, .inr fun _ h => absurd h List.not_mem_nil, 0, fun _ h => absurd h List.not_mem_nil⟩
  next =>
    have hnz : ∀ need ∈ demands.needs, need.num_slots_needed ≠ 0 :=
      fun need hneed => (demands.known need hneed).1
    rw [get_num_residual_slot_of_le hsid, bind_ok]
    have hstart : Rests B ncc s t superframe_id got demands.needs
        { needs := demands.needs, record := t.2, credits := t.1
          amount := (t.2.num_residual_slot .SLOT_TYPE_DATA superframe_id).toNat
          need_cnt := demands.needs.countP fun need => need.superframe_id = superframe_id } := by
      refine ⟨0, [], demands.needs, got, rfl, ?_, .inl rfl⟩
      exact
        { ledger := hledger
          amount := rfl
          needs := by
            rw [lefts_zero hnz]
            exact List.append_nil _
          need_cnt := by
            rw [List.append_nil]
            rfl
          spent := by
            rw [poured_zero]
            rfl
          got_front := fun _ h => absurd h List.not_mem_nil
          got_back := fun need hneed => (hzero need hneed).trans (Nat.min_zero _).symm
          frame := fun _ _ => rfl
          others := fun _ _ => rfl }
    have hloop : Ends (fun _ => False) (fun d : Dispatch =>
        Rests B ncc s t superframe_id got demands.needs d ∧ (d.need_cnt = 0 ∨ d.amount = 0))
        (loop SchedulerAbort.diverges (dispatchRound ncc superframe_id) fuel
          { needs := demands.needs, record := t.2, credits := t.1
            amount := (t.2.num_residual_slot .SLOT_TYPE_DATA superframe_id).toNat
            need_cnt := demands.needs.countP fun need => need.superframe_id = superframe_id }) := by
      refine Ends.loop Dispatch.amount
        (dispatchRound_rests hsid hnz demands.distinct hcovered) hstart fun _ => ?_
      have hlt := (t.2.num_residual_slot .SLOT_TYPE_DATA superframe_id).toNat_lt
      exact Nat.lt_of_lt_of_le hlt hfuel
    obtain ⟨d, hd, ⟨q, front, back, got', hl, hround, -⟩, hstop⟩ | ⟨e, -, hfalse⟩ := hloop.cases
    · have hneeds : d.needs = (demands.atLevels superframe_id q (q + 1) front back hl).needs := by
        have h := hround.needs
        rwa [List.append_nil] at h
      refine ⟨demands.atLevels superframe_id q (q + 1) front back hl, (d.credits, d.record), got', ?_,
        hround.ledger, ?_, fun s' hs' => ⟨demands.asking_atLevels hl hs', hround.others s' hs'⟩, ?_⟩
      · rw [hd, bind_ok, hneeds]
      · have hsettled := hround.settled (by rw [hl]; exact hnz) hstop
        rw [hl] at hsettled
        exact hsettled
      · intro id hno
        refine hround.frame id ?_
        rw [hl]
        exact hno
    · exact hfalse.elim

/-! ### All superframes -/

/-- The dispatching up to a superframe: those before it are settled, the others as they were. -/
structure Dispatched (B : Prop) (ncc : NccSlots) (demands : Demands rcst_infos)
    (s : RcstCredit × SlotAssignmentRecord) (k : Nat)
    (t : List SlotNeed × RcstCredit × SlotAssignmentRecord) (demands' : Demands rcst_infos)
    (got : RcstId → Nat) : Prop where
  needs : t.1 = demands'.needs
  ledger : Ledger B ncc s got t.2
  settled : ∀ superframe_id : UInt8, superframe_id.toNat < k →
    VolumeSettled got s.2 t.2.2 superframe_id (demands.asking superframe_id)
  asking : ∀ superframe_id : UInt8, k ≤ superframe_id.toNat →
    demands'.asking superframe_id = demands.asking superframe_id ∧
    t.2.2.num_residual_slot .SLOT_TYPE_DATA superframe_id =
      s.2.num_residual_slot .SLOT_TYPE_DATA superframe_id ∧
    ∀ need ∈ demands.asking superframe_id, got need.rcst_id = 0
  frame : ∀ id, (∀ need ∈ demands.needs, need.rcst_id ≠ id) → got id = 0

/-- Two needs of one RCST are one need. -/
theorem Demands.eq_of_rcst_id (demands : Demands rcst_infos) {a b : SlotNeed}
    (ha : a ∈ demands.needs) (hb : b ∈ demands.needs) (h : a.rcst_id = b.rcst_id) : a = b :=
  List.inj_on_of_nodup_map demands.distinct ha hb h

/-- A terminal asks in one superframe only. -/
theorem Demands.rcst_id_ne (demands : Demands rcst_infos) {s : UInt8} {a b : SlotNeed}
    (hs : s ≠ superframe_id) (ha : a ∈ demands.asking superframe_id) (hb : b ∈ demands.asking s) :
    a.rcst_id ≠ b.rcst_id := by
  intro h
  obtain ⟨ha, hasid⟩ := mem_askingIn.1 ha
  obtain ⟨hb, hbsid⟩ := mem_askingIn.1 hb
  rw [demands.eq_of_rcst_id ha hb h] at hasid
  exact hs (hbsid.symm.trans hasid)

/-- A superframe that is settled stays so while no need of it gets more. -/
theorem VolumeSettled.congr {got got' : RcstId → Nat} {before after after' : SlotAssignmentRecord}
    (h : VolumeSettled got before after superframe_id l)
    (hgot : ∀ need ∈ l, got' need.rcst_id = got need.rcst_id)
    (hres : after'.num_residual_slot .SLOT_TYPE_DATA superframe_id =
      after.num_residual_slot .SLOT_TYPE_DATA superframe_id) :
    VolumeSettled got' before after' superframe_id l where
  spent := by
    rw [hres, List.map_congr_left hgot]
    exact h.spent
  stopped := by
    rw [hres]
    exact h.stopped.imp_right fun hmet need hneed => (hgot need hneed).trans (hmet need hneed)
  levelled := by
    obtain ⟨q, hq⟩ := h.levelled
    refine ⟨q, fun need hneed => ?_⟩
    dsimp only
    rw [hgot need hneed]
    exact hq need hneed

/-- **Run lemma.** The dispatching settles every superframe. -/
theorem dispatched {fuel : Nat} (demands : Demands rcst_infos)
    (s : RcstCredit × SlotAssignmentRecord) (hmax : ncc.max_superframe_id.toNat ≤ 254)
    (hfuel : 2 ^ 16 ≤ fuel) (hdistinct : B → s.1.Distinct)
    (hcovered : B → ∀ need ∈ demands.needs,
      need.demand * ncc.num_of_atm_per_slot.toNat ≤ s.1.volume need.rcst_id) :
    Ends (fun _ => False) (fun t => ∃ demands' got,
        Dispatched B ncc demands s (ncc.max_superframe_id.toNat + 1) t demands' got)
      (forSuperframes ncc fuel (dispatch ncc rcst_infos fuel) (demands.needs, s)) := by
  refine forSuperframes_index (I := fun k t => ∃ demands' got,
    Dispatched B ncc demands s k t demands' got) ?_ hmax (Nat.le_trans (by decide) hfuel) ?_
  · rintro superframe_id hle ⟨needs, t⟩ ⟨demands', got, h⟩
    have hsid : superframe_id ≤ MAX_SUPERFRAME_ID :=
      UInt8.le_iff_toNat_le.2 (Nat.le_trans hle hmax)
    obtain ⟨hask, hres, hgot⟩ := h.asking superframe_id (Nat.le_refl _)
    obtain rfl : needs = demands'.needs := h.needs
    obtain ⟨demands₂, t₂, got₂, hrun, hledger, hsettled, hothers, hframe⟩ :=
      dispatch_settles hsid hfuel demands' h.ledger (hask ▸ hgot) fun hB need hneed =>
        hcovered hB need (mem_askingIn.1 (hask ▸ hneed : need ∈ demands.asking superframe_id)).1
    rw [hask] at hsettled hframe
    -- what the needs of another superframe have got stays
    have hsame : ∀ s' ≠ superframe_id, ∀ need ∈ demands.asking s',
        got₂ need.rcst_id = got need.rcst_id := fun s' hs' need hneed =>
      hframe _ fun x hx => demands.rcst_id_ne hs' hx hneed
    rw [hrun]
    refine Ends.ok ⟨demands₂, got₂, ⟨rfl, hledger, fun s' hs' => ?_, fun s' hs' => ?_, fun id hno => ?_⟩⟩
    · by_cases heq : s' = superframe_id
      · subst heq
        exact ⟨by rw [← hres]; exact hsettled.spent, hsettled.stopped, hsettled.levelled⟩
      · have hlt : s'.toNat < superframe_id.toNat := by
          have hne : s'.toNat ≠ superframe_id.toNat := fun h' => heq (UInt8.toNat_inj.1 h')
          omega
        exact (h.settled s' hlt).congr (hsame s' heq) (hothers s' heq).2
    · have hne : s' ≠ superframe_id := by
        rintro rfl
        omega
      obtain ⟨hask', hres', hgot'⟩ := h.asking s' (by omega)
      refine ⟨(hothers s' hne).1.trans hask', (hothers s' hne).2.trans hres', fun need hneed => ?_⟩
      rw [hsame s' hne need hneed]
      exact hgot' need hneed
    · rw [hframe id fun need hneed => hno need (mem_askingIn.1 hneed).1]
      exact h.frame id hno
  · exact ⟨demands, fun _ => 0, rfl, Ledger.init hdistinct, fun _ h => absurd h (Nat.not_lt_zero _),
      fun _ _ => ⟨rfl, rfl, fun _ _ => rfl⟩, fun _ _ => rfl⟩

/-- What a settled superframe has given is what the record counts. -/
theorem VolumeSettled.shared {s t : RcstCredit × SlotAssignmentRecord} {got : RcstId → Nat}
    (h : VolumeSettled got s.2 t.2 superframe_id l) (hledger : Ledger B ncc s got t) :
    s.2.Shared t.2 superframe_id l := by
  obtain ⟨q, hq⟩ := h.levelled
  have hgiven : ∀ need ∈ l, s.2.givenSince t.2 need.rcst_id = got need.rcst_id := by
    intro need hneed
    have hle : got need.rcst_id ≤ need.demand := hq.le_demand hneed
    exact hledger.givenSince_eq (Nat.lt_of_le_of_lt hle need.num_slots_needed.toNat_lt)
  have hfair := hq.fair
  exact
    { spent := by
        rw [List.map_congr_left hgiven]
        exact h.spent
      within := fun need hneed => hgiven need hneed ▸ hq.le_demand hneed
      stopped := h.stopped.imp_right fun hmet need hneed =>
        (hgiven need hneed).trans (hmet need hneed)
      fair := by
        intro a ha b hb
        dsimp only
        rw [hgiven a ha, hgiven b hb]
        exact hfair a ha b hb }

/-- **Round robin over volume requests.** -/
theorem dispatch_shared {fuel : Nat} (demands : Demands rcst_infos)
    (s : RcstCredit × SlotAssignmentRecord) (hmax : ncc.max_superframe_id.toNat ≤ 254)
    (hfuel : 2 ^ 16 ≤ fuel) :
    ∃ t, forSuperframes ncc fuel (dispatch ncc rcst_infos fuel) (demands.needs, s) = .ok t ∧
      ∀ superframe_id : UInt8, superframe_id.toUInt16 ≤ ncc.max_superframe_id →
        s.2.Shared t.2.2 superframe_id (demands.asking superframe_id) := by
  obtain ⟨t, ht, demands', got, h⟩ | ⟨e, -, hfalse⟩ :=
    (@dispatched False ncc rcst_infos fuel demands s hmax hfuel False.elim False.elim).cases
  · refine ⟨t, ht, fun superframe_id hle => ?_⟩
    have hlt : superframe_id.toNat < ncc.max_superframe_id.toNat + 1 :=
      Nat.lt_succ_of_le (UInt16.le_iff_toNat_le.1 hle)
    exact (h.settled superframe_id hlt).shared h.ledger
  · exact hfalse.elim

/-- Three RCSTs on one superframe. -/
def threeRcsts : RcstInfoList where
  info_list := [
    ⟨⟨0, 1⟩, .RCST_STATE_FINE_SYNC, 0, 0, 9, 0, 1⟩,
    ⟨⟨0, 2⟩, .RCST_STATE_FINE_SYNC, 0, 0, 9, 0, 1⟩,
    ⟨⟨0, 3⟩, .RCST_STATE_FINE_SYNC, 0, 0, 9, 0, 1⟩]
  logon_distinct := by decide

/-- Three terminals that need 4, 1 and 9 slots. -/
def threeDemands : Demands threeRcsts where
  needs := [⟨0, ⟨0, 1⟩, 4⟩, ⟨0, ⟨0, 2⟩, 1⟩, ⟨0, ⟨0, 3⟩, 9⟩]
  known := by
    intro need hneed
    refine ⟨?_, ?_⟩
    · revert need
      decide
    · revert need
      decide
  distinct := by decide

/-- Slots of a number of cells, and one superframe. -/
def cellSlots (num_of_atm_per_slot : UInt16) : NccSlots where
  num_of_atm_per_slot := num_of_atm_per_slot
  num_of_frame_per_superframe := 1
  bps_to_spf := id
  spf_to_bps := id
  max_superframe_id := 0
  fca_turned_on := true
  double_overflow _ := 0

/-- A record with data slots left in every superframe. -/
def freshRecord (slots : UInt16) : SlotAssignmentRecord :=
  ⟨fun _ => slots, fun _ _ => slots, fun _ => 0, fun _ _ => 0, fun _ => []⟩

/-- Seven slots for three terminals. -/
theorem dispatch_shared_three :
    ∃ t, forSuperframes (cellSlots 2) (2 ^ 16) (dispatch (cellSlots 2) threeRcsts (2 ^ 16))
        (threeDemands.needs, [], freshRecord 7) = .ok t ∧
      ∀ superframe_id : UInt8, superframe_id.toUInt16 ≤ (cellSlots 2).max_superframe_id →
        (freshRecord 7).Shared t.2.2 superframe_id (threeDemands.asking superframe_id) :=
  dispatch_shared threeDemands ([], freshRecord 7) (by decide) (by decide)

/-- Seven slots for demands of four, one and nine. -/
example : (forSuperframes (cellSlots 2) (2 ^ 16) (dispatch (cellSlots 2) threeRcsts (2 ^ 16))
    (threeDemands.needs, [], freshRecord 7)).map (fun t =>
      threeDemands.needs.map fun need => (freshRecord 7).givenSince t.2.2 need.rcst_id) =
        .ok [3, 1, 3] := by decide +kernel

end Dvb
