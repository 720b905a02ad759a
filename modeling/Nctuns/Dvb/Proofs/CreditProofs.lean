import Nctuns.Dvb.Volume
import Nctuns.Dvb.Proofs.TimeslotSchedulerProofs

/-!
# Proofs about credits and grants

An RCST has at most one entry of a type, so a change to the first one is a change to the credit. A
grant takes slots from a superframe, and what a pass has granted to each RCST is kept in a ledger.
-/

namespace Dvb

open Outcome

/-! ### Credits -/

namespace RcstCredit

variable {credits : RcstCredit} {rcst_id id : RcstId} {type ty : CreditType}
  {f : CreditEntry → Option CreditEntry} {e : CreditEntry}

theorem isEntry_iff : isEntry rcst_id type e ↔ e.rcst_id = rcst_id ∧ e.credit_type = type := by
  rw [isEntry, decide_eq_true_iff]

/-- A change to an entry that leaves it under its RCST and its type. -/
def KeepsKey (f : CreditEntry → Option CreditEntry) : Prop :=
  ∀ e e', f e = some e' → e'.rcst_id = e.rcst_id ∧ e'.credit_type = e.credit_type

/-- A change of the value leaves the entry what it is. -/
theorem isEntry_of_keeps (hf : KeepsKey f) {e' : CreditEntry} (h : f e = some e') :
    isEntry rcst_id type e' = isEntry rcst_id type e := by
  obtain ⟨hid, hty⟩ := hf e e' h
  unfold isEntry
  rw [hid, hty]

/-- Another credit is found as before. -/
theorem find_update_of_ne (hf : KeepsKey f) (hne : ¬ (id = rcst_id ∧ ty = type)) :
    (update rcst_id type f credits).find? (isEntry id ty) = credits.find? (isEntry id ty) := by
  induction credits with
  | nil => rfl
  | cons e es ih =>
    unfold update
    by_cases he : isEntry rcst_id type e
    · have hno : isEntry id ty e = false := by
        rw [isEntry_iff] at he
        rw [isEntry, decide_eq_false_iff_not]
        rintro ⟨hid, hty⟩
        exact hne ⟨hid.symm.trans he.1, hty.symm.trans he.2⟩
      rw [if_pos he, List.find?_cons_of_neg (by simp [hno])]
      cases hfe : f e with
      | none => rfl
      | some e' =>
        have he' : isEntry id ty e' = false := by rw [isEntry_of_keeps hf hfe, hno]
        exact List.find?_cons_of_neg (by simp [he'])
    · rw [if_neg he, List.find?_cons, List.find?_cons, ih]

/-- Behind the entry there is no second one. -/
theorem find_eq_none_of_distinct {es : RcstCredit} (h : Distinct (e :: es))
    (he : isEntry rcst_id type e) : es.find? (isEntry rcst_id type) = none := by
  rw [List.find?_eq_none]
  intro e' hmem he'
  rw [isEntry_iff] at he he'
  have hkey := (List.nodup_cons.1 h).1
  refine hkey (List.mem_map.2 ⟨e', hmem, ?_⟩)
  exact Prod.ext (he'.1.trans he.1.symm) (he'.2.trans he.2.symm)

/-- The credit itself is found changed, or no more. -/
theorem find_update_self (hf : KeepsKey f) (hd : Distinct credits) :
    (update rcst_id type f credits).find? (isEntry rcst_id type) =
      (credits.find? (isEntry rcst_id type)).bind f := by
  induction credits with
  | nil => rfl
  | cons e es ih =>
    unfold update
    by_cases he : isEntry rcst_id type e
    · rw [if_pos he, List.find?_cons_of_pos he, Option.bind_some]
      cases hfe : f e with
      | none => exact find_eq_none_of_distinct hd he
      | some e' =>
        have he' : isEntry rcst_id type e' = true := by rw [isEntry_of_keeps hf hfe, he]
        exact List.find?_cons_of_pos he'
    · rw [if_neg he, List.find?_cons_of_neg he, List.find?_cons_of_neg he]
      exact ih (List.nodup_cons.1 hd).2

/-- An update keeps the keys, or drops one. -/
theorem keys_update (hf : KeepsKey f) :
    ((update rcst_id type f credits).map fun e => (e.rcst_id, e.credit_type)).Sublist
      (credits.map fun e => (e.rcst_id, e.credit_type)) := by
  induction credits with
  | nil => exact List.Sublist.refl _
  | cons e es ih =>
    unfold update
    by_cases he : isEntry rcst_id type e
    · rw [if_pos he]
      cases hfe : f e with
      | none => exact List.sublist_cons_self _ _
      | some e' =>
        obtain ⟨hid, hty⟩ := hf e e' hfe
        show List.Sublist ((e'.rcst_id, e'.credit_type) :: _) _
        rw [hid, hty]
        exact List.Sublist.refl _
    · rw [if_neg he]
      exact ih.cons_cons _

/-- An update keeps the keys distinct. -/
theorem Distinct.update (h : Distinct credits) (hf : KeepsKey f) :
    Distinct (update rcst_id type f credits) :=
  (keys_update hf).nodup h

/-- A new entry has a key of its own. -/
theorem Distinct.create (h : Distinct credits) (rcst_id : RcstId) (type : CreditType) :
    Distinct (credits.create_credit_entry rcst_id type) := by
  unfold create_credit_entry
  split
  · exact h
  next hno =>
    unfold Distinct
    rw [List.map_append, List.nodup_append']
    refine ⟨h, List.nodup_singleton _, ?_⟩
    intro key hkey hnew
    obtain rfl := List.mem_singleton.1 hnew
    obtain ⟨e, he, heq⟩ := List.mem_map.1 hkey
    refine hno (List.any_eq_true.2 ⟨e, he, ?_⟩)
    rw [isEntry_iff]
    exact Prod.mk.inj heq

/-- A new value keeps the key. -/
theorem keepsKey_value (g : CreditEntry → UInt64) : KeepsKey fun e => some { e with value := g e } := by
  rintro e e' h
  obtain rfl := Option.some.inj h
  exact ⟨rfl, rfl⟩

/-- The change that `decrease_credit_value` makes to an entry. -/
def decreased (value : UInt64) (e : CreditEntry) : Option CreditEntry :=
  if e.value < value then some e
  else if e.value - value = 0 then none
  else some { e with value := e.value - value }

/-- A decrease keeps the key. -/
theorem keepsKey_decreased (value : UInt64) : KeepsKey (decreased value) := by
  intro e e' h
  unfold decreased at h
  split at h
  · obtain rfl := Option.some.inj h
    exact ⟨rfl, rfl⟩
  · split at h
    · cases h
    · obtain rfl := Option.some.inj h
      exact ⟨rfl, rfl⟩

theorem decrease_credit_value_eq (credits : RcstCredit) (rcst_id : RcstId) (type : CreditType)
    (value : UInt64) : credits.decrease_credit_value rcst_id type value =
      update rcst_id type (decreased value) credits := rfl

/-- A decrease keeps the keys distinct. -/
theorem Distinct.decrease (h : Distinct credits) (rcst_id : RcstId) (type : CreditType)
    (value : UInt64) : Distinct (credits.decrease_credit_value rcst_id type value) :=
  h.update (keepsKey_decreased value)

/-- What is taken from a credit that has as much leaves the rest, and no entry where nothing is
    left. -/
theorem volume_decrease (h : Distinct credits) {value : UInt64}
    (hle : value.toNat ≤ credits.volume rcst_id) :
    (credits.decrease_credit_value rcst_id .VB_CREDIT value).volume id =
      if id = rcst_id then credits.volume rcst_id - value.toNat else credits.volume id := by
  by_cases hid : id = rcst_id
  · subst hid
    rw [if_pos rfl]
    unfold volume get_credit_value at hle ⊢
    rw [decrease_credit_value_eq, find_update_self (keepsKey_decreased value) h]
    cases hfind : credits.find? (isEntry id .VB_CREDIT) with
    | none => exact (Nat.zero_sub _).symm
    | some e =>
      rw [hfind] at hle
      have hnlt : ¬ e.value < value := by
        rw [UInt64.lt_iff_toNat_lt]
        exact Nat.not_lt.2 hle
      have hsub : (e.value - value).toNat = e.value.toNat - value.toNat :=
        UInt64.toNat_sub_of_le _ _ (UInt64.not_lt.1 hnlt)
      rw [Option.bind_some, decreased, if_neg hnlt]
      by_cases h0 : e.value - value = 0
      · rw [if_pos h0]
        rw [h0] at hsub
        exact hsub
      · rw [if_neg h0]
        exact hsub
  · rw [if_neg hid]
    unfold volume get_credit_value
    rw [decrease_credit_value_eq, find_update_of_ne (keepsKey_decreased value) fun h => hid h.1]

/-- A volume request keeps the keys distinct. -/
theorem recordVbdc_distinct {request : RcstCapacityRequest} (h : Distinct credits) :
    Distinct (TimeslotScheduler.recordVbdc credits request) :=
  (h.create ..).update (keepsKey_value _)

/-- An absolute volume request keeps the keys distinct. -/
theorem recordAvbdc_distinct {request : RcstCapacityRequest} (h : Distinct credits) :
    Distinct (TimeslotScheduler.recordAvbdc credits request) :=
  (h.create ..).update (keepsKey_value _)

/-- The requests of a heap keep the keys distinct. -/
theorem recordRequests_distinct {heap : HeapOfCapacityRequest} (h : Distinct credits) :
    Distinct (TimeslotScheduler.recordRequests heap credits) := by
  have hvbdc : Distinct (heap.vbdc_requests.foldl TimeslotScheduler.recordVbdc credits) :=
    List.foldlRecOn _ _ h fun _ hb _ _ => recordVbdc_distinct hb
  exact List.foldlRecOn _ _ hvbdc fun _ hb _ _ => recordAvbdc_distinct hb

end RcstCredit

/-! ### Grants -/

namespace SlotAssignmentRecord

variable {record : SlotAssignmentRecord} {superframe_id s : UInt8} {rcst_id id : RcstId}
  {num_slots : UInt16}

/-- The record with data slots counted for an RCST. -/
def counted (record : SlotAssignmentRecord) (superframe_id : UInt8) (rcst_id : RcstId)
    (num_slots : UInt16) : SlotAssignmentRecord :=
  { record with
    num_residual_slot := fun t s =>
      if t = .SLOT_TYPE_DATA ∧ s = superframe_id then record.num_residual_slot t s - num_slots
      else record.num_residual_slot t s
    num_slot_of_rcst := fun t r =>
      if t = .SLOT_TYPE_DATA ∧ r = rcst_id then record.num_slot_of_rcst t r + num_slots
      else record.num_slot_of_rcst t r }

/-- Slots that are left can be given. -/
theorem add_num_slot_of_le (hsid : superframe_id ≤ MAX_SUPERFRAME_ID)
    (hle : num_slots ≤ record.num_residual_slot .SLOT_TYPE_DATA superframe_id) :
    record.add_num_slot superframe_id rcst_id .SLOT_TYPE_DATA num_slots =
      .ok (true, record.counted superframe_id rcst_id num_slots) := by
  unfold add_num_slot
  rw [if_neg (UInt8.not_lt.2 hsid), if_pos hle]
  rfl

@[simp] theorem counted_residual : (record.counted superframe_id rcst_id num_slots).num_residual_slot
    .SLOT_TYPE_DATA superframe_id =
      record.num_residual_slot .SLOT_TYPE_DATA superframe_id - num_slots :=
  if_pos ⟨rfl, rfl⟩

/-- The other superframes keep what is left of them. -/
theorem counted_residual_of_ne (h : s ≠ superframe_id) :
    (record.counted superframe_id rcst_id num_slots).num_residual_slot .SLOT_TYPE_DATA s =
      record.num_residual_slot .SLOT_TYPE_DATA s :=
  if_neg fun h' => h h'.2

@[simp] theorem counted_num_slot : (record.counted superframe_id rcst_id num_slots).num_slot_of_rcst
    .SLOT_TYPE_DATA rcst_id = record.num_slot_of_rcst .SLOT_TYPE_DATA rcst_id + num_slots :=
  if_pos ⟨rfl, rfl⟩

/-- The other terminals keep what they have. -/
theorem counted_num_slot_of_ne (h : id ≠ rcst_id) :
    (record.counted superframe_id rcst_id num_slots).num_slot_of_rcst .SLOT_TYPE_DATA id =
      record.num_slot_of_rcst .SLOT_TYPE_DATA id :=
  if_neg fun h' => h h'.2

/-- A superframe in bounds is read. -/
theorem get_num_residual_slot_of_le (hsid : superframe_id ≤ MAX_SUPERFRAME_ID) (type : SlotType) :
    record.get_num_residual_slot superframe_id type =
      .ok (record.num_residual_slot type superframe_id) :=
  if_neg (UInt8.not_lt.2 hsid)

end SlotAssignmentRecord

/-- What each RCST has got since the pass began: the slots are counted for it and, if the credits
    cover them (`B`), taken from its volume. -/
structure Ledger (B : Prop) (ncc : NccSlots) (s : RcstCredit × SlotAssignmentRecord)
    (got : RcstId → Nat) (t : RcstCredit × SlotAssignmentRecord) : Prop where
  slots : ∀ id, t.2.num_slot_of_rcst .SLOT_TYPE_DATA id =
    s.2.num_slot_of_rcst .SLOT_TYPE_DATA id + .ofNat (got id)
  distinct : B → t.1.Distinct
  volume : B → ∀ id, t.1.volume id + got id * ncc.num_of_atm_per_slot.toNat = s.1.volume id

namespace Ledger

variable {B : Prop} {ncc : NccSlots} {s t : RcstCredit × SlotAssignmentRecord} {got : RcstId → Nat}

/-- Before the first grant nothing has been given. -/
theorem init (h : B → s.1.Distinct) : Ledger B ncc s (fun _ => 0) s where
  slots _ := (UInt16.add_zero _).symm
  distinct := h
  volume _ _ := by rw [Nat.zero_mul, Nat.add_zero]

/-- What has been given since is what the ledger says. -/
theorem givenSince_eq (h : Ledger B ncc s got t) {id : RcstId} (hlt : got id < 2 ^ 16) :
    s.2.givenSince t.2 id = got id := by
  unfold SlotAssignmentRecord.givenSince SlotAssignmentRecord.get_num_slot
  rw [h.slots, UInt16.add_comm, UInt16.add_sub_cancel, UInt16.toNat_ofNat_of_lt' hlt]

/-- **Step lemma.** A grant that the credit covers. -/
theorem grant (h : Ledger B ncc s got t) (superframe_id : UInt8) (rcst_id : RcstId) {grant : Nat}
    {value : UInt64} (hvalue : value.toNat = grant * ncc.num_of_atm_per_slot.toNat)
    (hcovered : B → (got rcst_id + grant) * ncc.num_of_atm_per_slot.toNat ≤ s.1.volume rcst_id) :
    Ledger B ncc s (Function.update got rcst_id (got rcst_id + grant))
      (t.1.decrease_credit_value rcst_id .VB_CREDIT value,
        t.2.counted superframe_id rcst_id (.ofNat grant)) where
  slots id := by
    have hold := h.slots id
    by_cases hid : id = rcst_id
    · subst hid
      rw [SlotAssignmentRecord.counted_num_slot, hold, Function.update_self, UInt16.ofNat_add,
        UInt16.add_assoc]
    · rw [SlotAssignmentRecord.counted_num_slot_of_ne hid, hold, Function.update_of_ne hid]
  distinct hB := (h.distinct hB).decrease ..
  volume hB id := by
    have hold := h.volume hB id
    have hself := h.volume hB rcst_id
    have hcov := hcovered hB
    rw [Nat.add_mul] at hcov
    have hle : value.toNat ≤ t.1.volume rcst_id := by omega
    show RcstCredit.volume _ id + _ = _
    rw [RcstCredit.volume_decrease (h.distinct hB) hle]
    by_cases hid : id = rcst_id
    · subst hid
      rw [if_pos rfl, Function.update_self, Nat.add_mul]
      omega
    · rw [if_neg hid, Function.update_of_ne hid]
      exact hold

end Ledger

/-! ### The superframes one behind the other -/

/-- An invariant that counts the superframes holds behind the loop over them. -/
theorem forSuperframes_index {σ : Type} {E : SchedulerAbort → Prop} {ncc : NccSlots} {fuel : Nat}
    {I : Nat → σ → Prop} {body : UInt8 → σ → Except SchedulerAbort σ} {s : σ}
    (hbody : ∀ superframe_id : UInt8, superframe_id.toNat ≤ ncc.max_superframe_id.toNat →
      ∀ s, I superframe_id.toNat s → Ends E (I (superframe_id.toNat + 1)) (body superframe_id s))
    (hmax : ncc.max_superframe_id.toNat ≤ 254) (hfuel : 256 ≤ fuel) (hs : I 0 s) :
    Ends E (I (ncc.max_superframe_id.toNat + 1))
      (TimeslotScheduler.forSuperframes ncc fuel body s) := by
  refine Ends.bind (Ends.loop (I := fun t : UInt8 × σ => I t.1.toNat t.2 ∧
      t.1.toNat ≤ ncc.max_superframe_id.toNat + 1)
    (J := fun t : UInt8 × σ => I (ncc.max_superframe_id.toNat + 1) t.2) (fun t => 255 - t.1.toNat)
    (fun t ht => superframeRound_ends (fun hle => ?_) fun hnot => ?_)
    ⟨hs, Nat.zero_le _⟩ fun _ => ?_) fun t ht => ht
  · have hle : t.1.toNat ≤ ncc.max_superframe_id.toNat := UInt16.le_iff_toNat_le.1 hle
    have hsucc : (t.1 + 1).toNat = t.1.toNat + 1 := by
      rw [UInt8.toNat_add, show (1 : UInt8).toNat = 1 from rfl, Nat.mod_eq_of_lt (by omega)]
    refine (hbody t.1 hle t.2 ht.1).mono (fun _ he => he) fun s' h' => ⟨⟨?_, ?_⟩, fun _ => ?_⟩
    · show I (t.1 + 1).toNat s'
      rw [hsucc]
      exact h'
    · show (t.1 + 1).toNat ≤ _
      omega
    · show 255 - (t.1 + 1).toNat < _
      omega
  · have hgt : ¬ t.1.toNat ≤ ncc.max_superframe_id.toNat := fun h =>
      hnot (UInt16.le_iff_toNat_le.2 h)
    have heq : t.1.toNat = ncc.max_superframe_id.toNat + 1 := by omega
    exact heq ▸ ht.1
  · show 255 - 0 < fuel
    omega

end Dvb
