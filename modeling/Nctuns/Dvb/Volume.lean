import Mathlib.Logic.Function.Iterate
import Mathlib.Data.List.Rotate
import Nctuns.Dvb.TimeslotScheduler
import Nctuns.Lib.MaxMin

/-!
# Capacity requested as a volume

What the passes for VBDC, AVBDC and free capacity owe: a superframe's slots are shared out fairly, and
a slot that an RCST gets is paid for in ATM cells of its VB credit.
-/

namespace Dvb

/-! ### Sharing out a superframe -/

/-- `slot_need_and_given_list`: RCSTs of the list that need something, each at most once. -/
structure Demands (rcst_infos : RcstInfoList) where
  needs : List SlotNeed
  known : ∀ need ∈ needs, need.num_slots_needed ≠ 0 ∧ ∃ r ∈ rcst_infos.info_list,
    r.rcst_id = need.rcst_id ∧ r.superframe_id_for_transmission = need.superframe_id
  distinct : (needs.map SlotNeed.rcst_id).Nodup

/-- The needs of the RCSTs of a superframe. -/
def Demands.asking {rcst_infos : RcstInfoList} (demands : Demands rcst_infos)
    (superframe_id : UInt8) : List SlotNeed :=
  demands.needs.filter fun need => need.superframe_id = superframe_id

/-- The slots that are needed, as a number. -/
def SlotNeed.demand (need : SlotNeed) : Nat := need.num_slots_needed.toNat

namespace SlotAssignmentRecord

variable (record after : SlotAssignmentRecord)

/-- The data slots that an RCST has got since `record`. -/
def givenSince (rcst_id : RcstId) : Nat :=
  (after.get_num_slot rcst_id .SLOT_TYPE_DATA - record.get_num_slot rcst_id .SLOT_TYPE_DATA).toNat

/-- What is left of a superframe is shared out among its needs. -/
structure Shared (superframe_id : UInt8) (needs : List SlotNeed) : Prop where
  spent : (after.num_residual_slot .SLOT_TYPE_DATA superframe_id).toNat +
    (needs.map fun need => record.givenSince after need.rcst_id).sum =
      (record.num_residual_slot .SLOT_TYPE_DATA superframe_id).toNat
  within : ∀ need ∈ needs, record.givenSince after need.rcst_id ≤ need.demand
  stopped : after.num_residual_slot .SLOT_TYPE_DATA superframe_id = 0 ∨
    ∀ need ∈ needs, record.givenSince after need.rcst_id = need.demand
  fair : MaxMin.Fair SlotNeed.demand (fun need => record.givenSince after need.rcst_id) needs

end SlotAssignmentRecord

/-! ### Paying with credit -/

namespace RcstCredit

/-- At most one entry for an RCST and a type. -/
def Distinct (credits : RcstCredit) : Prop :=
  (credits.map fun e => (e.rcst_id, e.credit_type)).Nodup

/-- The outstanding volume of an RCST in ATM cells. -/
def volume (credits : RcstCredit) (rcst_id : RcstId) : Nat :=
  (credits.get_credit_value rcst_id .VB_CREDIT).toNat

end RcstCredit

/-- What a slot of `num_of_atm_per_slot` cells leaves of a volume. -/
def payForSlot (num_of_atm_per_slot volume : Nat) : Nat := volume - min volume num_of_atm_per_slot

namespace TimeslotScheduler

variable (ncc : NccSlots) (rcst_infos : RcstInfoList)

/-- Every data slot that an RCST gets between two states is paid for. -/
def Paid (s t : RcstCredit × SlotAssignmentRecord) : Prop :=
  ∀ rcst_id, t.1.volume rcst_id =
    (payForSlot ncc.num_of_atm_per_slot.toNat)^[s.2.givenSince t.2 rcst_id] (s.1.volume rcst_id)

/-- Every data slot that an RCST gets is worth all its cells. -/
def Covered (s t : RcstCredit × SlotAssignmentRecord) : Prop :=
  ∀ rcst_id, s.2.givenSince t.2 rcst_id * ncc.num_of_atm_per_slot.toNat ≤ s.1.volume rcst_id

/-- The credits once the requests are in. -/
def recordRequests (heap : HeapOfCapacityRequest) (credits : RcstCredit) : RcstCredit :=
  heap.avbdc_requests.foldl recordAvbdc (heap.vbdc_requests.foldl recordVbdc credits)

/-- The slots of free capacity that each active RCST of a superframe gets. -/
def equalShare (record : SlotAssignmentRecord) (superframe_id : UInt8) : Nat :=
  (record.num_residual_slot .SLOT_TYPE_DATA superframe_id).toNat /
    rcst_infos.active_rcst_amount superframe_id

/-- The RCSTs that get a slot more, from the iterator on. -/
def extraShares (record : SlotAssignmentRecord) (it_rr : UInt8 → Nat) (superframe_id : UInt8) :
    List RcstInfo :=
  ((rcst_infos.info_list.rotate (it_rr superframe_id)).filter
      (RcstInfoList.active superframe_id)).take
    ((record.num_residual_slot .SLOT_TYPE_DATA superframe_id).toNat %
      rcst_infos.active_rcst_amount superframe_id)

/-- What an RCST of a superframe still owes for a slot behind its equal share of free capacity. -/
def restVolume (s : RcstCredit × SlotAssignmentRecord) (superframe_id : UInt8) (rcst_id : RcstId) :
    Nat :=
  s.1.volume rcst_id - equalShare rcst_infos s.2 superframe_id * ncc.num_of_atm_per_slot.toNat

/-- Iterators in the list of RCSTs, superframes in the arrays, and loops with enough rounds. -/
structure InRange (fuel : Nat) (it_rr : UInt8 → Nat) : Prop where
  max_superframe_id : ncc.max_superframe_id.toNat ≤ 254
  it_rr : rcst_infos.info_list ≠ [] →
    ∀ superframe_id, it_rr superframe_id < rcst_infos.info_list.length
  fuel : 2 ^ 16 * (rcst_infos.info_list.length + 1) ≤ fuel

end TimeslotScheduler

end Dvb
