import Mathlib.Order.Interval.Finset.Nat
import Nctuns.Dvb.RcstQueue
import Nctuns.Lib.RoundRobin
import Nctuns.Lib.Outcome

/-!
# The timeslot scheduler of the NCC

`Timeslot_scheduler::scheduling` (`ncc/timeslot_scheduler.cc`): five passes count slots for the RCSTs,
each taking them from what is left of the superframe, and the counts are then laid out as intervals
of slots. Rates are converted to slots in floating point, which is a parameter.
-/

namespace Dvb

open Outcome

/-- A terminal: its group and its logon number. -/
structure RcstId where
  group_id : UInt8
  logon_id : UInt16
  deriving DecidableEq

/-- How far a terminal is with its synchronisation. -/
inductive RcstState
  | RCST_STATE_OFF
  | RCST_STATE_RECEIVE_SYNC
  | RCST_STATE_READY_FOR_COARSE_SYNC
  | RCST_STATE_READY_FOR_FINE_SYNC
  | RCST_STATE_FINE_SYNC
  deriving DecidableEq

/-- What is known of a terminal: its superframe and its capacity levels. -/
structure RcstInfo where
  rcst_id : RcstId
  rcst_state : RcstState
  superframe_id_for_transmission : UInt8
  cra_level : UInt32
  vbdc_max : UInt16
  rbdc_max : UInt32
  rbdc_timeout : UInt16

/-- `Rcst_info_list`; `parse_ncc_config` stops at a second entry with the same logon id. -/
structure RcstInfoList where
  info_list : List RcstInfo
  logon_distinct : (info_list.map fun r => r.rcst_id.logon_id).Nodup

namespace RcstInfoList

variable (rcst_infos : RcstInfoList)

/-- A field of a terminal, if the terminal is in the list. -/
def lookup {α : Type} (f : RcstInfo → α) (rcst_id : RcstId) : Option α :=
  (rcst_infos.info_list.find? fun r => r.rcst_id = rcst_id).map f

/-- The highest rate that a terminal may ask for. -/
def get_rbdc_max := rcst_infos.lookup RcstInfo.rbdc_max

/-- How long a rate request of a terminal lasts. -/
def get_rbdc_timeout := rcst_infos.lookup RcstInfo.rbdc_timeout

/-- The highest volume that a terminal may ask for. -/
def get_vbdc_max := rcst_infos.lookup RcstInfo.vbdc_max

/-- The superframe in which a terminal sends. -/
def get_superframe_id_for_transmission :=
  rcst_infos.lookup RcstInfo.superframe_id_for_transmission

/-- The terminals of a superframe. -/
def rcst_amount (superframe_id : UInt8) : Nat :=
  rcst_infos.info_list.countP fun r => r.superframe_id_for_transmission = superframe_id

/-- The superframe has no terminal. -/
def no_rcst (superframe_id : UInt8) : Prop := rcst_infos.rcst_amount superframe_id = 0

instance (superframe_id : UInt8) : Decidable (rcst_infos.no_rcst superframe_id) :=
  inferInstanceAs (Decidable (_ = _))

/-- Whether an RCST sends in a superframe and is active. -/
def active (superframe_id : UInt8) (r : RcstInfo) : Bool :=
  r.superframe_id_for_transmission = superframe_id ∧ r.rcst_state = .RCST_STATE_FINE_SYNC

/-- The terminals of a superframe that are synchronised. -/
def active_rcst_amount (superframe_id : UInt8) : Nat :=
  rcst_infos.info_list.countP (active superframe_id)

end RcstInfoList

/-- The part of `Ncc_config` that the scheduler uses. -/
structure NccSlots extends NccConfig where
  max_superframe_id : UInt16
  fca_turned_on : Bool
  /-- What the conversion of a `double` to `uint16_t` gives when the value does not fit. -/
  double_overflow : UInt32 → UInt16

/-- The last superframe. -/
abbrev MAX_SUPERFRAME_ID : UInt8 := 254

/-- The slots for data and those for requests. -/
inductive SlotType
  | SLOT_TYPE_DATA
  | SLOT_TYPE_REQUEST
  deriving DecidableEq

/-- What stops the scheduler: an assertion about the configuration or a request, `errx`, a division by
    zero, an assertion about its own slot counts, an array index or an iterator out of range, or a
    loop that does not end. -/
inductive SchedulerAbort
  | config
  | exit
  | division
  | accounting
  | bounds
  | iterator
  | diverges
  deriving DecidableEq

/-- `struct Slot_assignment`. -/
structure SlotAssignment where
  rcst_id : RcstId
  start_slot : UInt16
  /-- One less than the number of slots. -/
  assignment_count : UInt8
  deriving DecidableEq

/-- `Slot_assignment_record`; what it has once for data and once for request slots takes the type. -/
structure SlotAssignmentRecord where
  num_total_slot_of : SlotType → UInt16
  num_residual_slot : SlotType → UInt8 → UInt16
  first_unused_slot : UInt8 → UInt16
  /-- `num_data_slot_of_rcst` and `num_req_slot_of_rcst`, zero where the map has no entry. -/
  num_slot_of_rcst : SlotType → RcstId → UInt16
  slot_chunk_list : SlotType → List SlotAssignment

namespace SlotAssignmentRecord

variable (record : SlotAssignmentRecord)

/-- `num_total_slot`, a sum in 16 bits. -/
def num_total_slot : UInt16 :=
  record.num_total_slot_of .SLOT_TYPE_DATA + record.num_total_slot_of .SLOT_TYPE_REQUEST

/-- No slot is assigned. -/
def init : SlotAssignmentRecord where
  num_total_slot_of := record.num_total_slot_of
  num_residual_slot type _ := record.num_total_slot_of type
  first_unused_slot _ := 0
  num_slot_of_rcst _ _ := 0
  slot_chunk_list _ := []

/-- The slots of a superframe that are left. -/
def get_num_residual_slot (superframe_id : UInt8) (type : SlotType) :
    Except SchedulerAbort UInt16 :=
  if superframe_id > MAX_SUPERFRAME_ID then .error .bounds
  else .ok (record.num_residual_slot type superframe_id)

/-- The slots that a terminal has been given. -/
def get_num_slot (rcst_id : RcstId) (type : SlotType) : UInt16 := record.num_slot_of_rcst type rcst_id

/-- `Slot_assignment_record::add_num_slot`: whether the slots were left. -/
def add_num_slot (superframe_id : UInt8) (rcst_id : RcstId) (type : SlotType) (num_slots : UInt16) :
    Except SchedulerAbort (Bool × SlotAssignmentRecord) :=
  if superframe_id > MAX_SUPERFRAME_ID then .error .bounds
  else if num_slots ≤ record.num_residual_slot type superframe_id then
    .ok (true, { record with
      num_residual_slot := fun t s =>
        if t = type ∧ s = superframe_id then record.num_residual_slot t s - num_slots
        else record.num_residual_slot t s
      num_slot_of_rcst := fun t r =>
        if t = type ∧ r = rcst_id then record.num_slot_of_rcst t r + num_slots
        else record.num_slot_of_rcst t r })
  else .ok (false, record)

/-- The loop of `assign_slot`: the new chunks. A chunk takes at least one slot, so there are at most
    `count` of them. -/
def assign_slot (rcst_id : RcstId) : Nat → UInt16 → UInt16 → Option (List SlotAssignment)
  | 0, _, _ => some []
  | fuel + 1, start_slot, count =>
    if count > 0 then
      let give : UInt16 := if count > 256 then 256 else count
      if start_slot.toNat + give.toNat ≤ record.num_total_slot.toNat then
        match assign_slot rcst_id fuel (start_slot + give) (count - give) with
        | none => none
        | some chunks => some (⟨rcst_id, start_slot, (give - 1).toUInt8⟩ :: chunks)
      else none
    else some []

/-- One RCST in `num_slot_to_chunk_list`. -/
def layOut (type : SlotType) (record : SlotAssignmentRecord) (r : RcstInfo) :
    Except SchedulerAbort SlotAssignmentRecord :=
  let num_slot := record.get_num_slot r.rcst_id type
  let superframe_id := r.superframe_id_for_transmission
  if num_slot > 0 then
    if superframe_id > MAX_SUPERFRAME_ID then .error .bounds
    else
      match record.assign_slot r.rcst_id num_slot.toNat (record.first_unused_slot superframe_id)
        num_slot with
      | none => .error .accounting
      | some chunks =>
        .ok { record with
          first_unused_slot := fun s =>
            if s = superframe_id then record.first_unused_slot s + num_slot
            else record.first_unused_slot s
          slot_chunk_list := fun t =>
            if t = type then record.slot_chunk_list t ++ chunks else record.slot_chunk_list t }
  else .ok record

/-- The start of `num_slot_to_chunk_list`: data slots are behind the request slots. -/
def startLayout (type : SlotType) : Except SchedulerAbort SlotAssignmentRecord :=
  match type with
  | .SLOT_TYPE_REQUEST => .ok record
  | .SLOT_TYPE_DATA =>
    let num_total_req_slot := record.num_total_slot_of .SLOT_TYPE_REQUEST
    if ¬ (List.range 255).all fun s => record.first_unused_slot (.ofNat s) ≤ num_total_req_slot then
      .error .accounting
    else
      .ok { record with
        first_unused_slot := fun s =>
          if s ≤ MAX_SUPERFRAME_ID then num_total_req_slot else record.first_unused_slot s }

/-- The slots of one type are laid out, terminal by terminal. -/
def num_slot_to_chunk_list (rcst_infos : RcstInfoList) (type : SlotType) :
    Except SchedulerAbort SlotAssignmentRecord := do
  let record ← record.startLayout type
  rcst_infos.info_list.foldlM (layOut type) record

/-- The slots of both types are laid out. -/
def set_up_slot_assignment (rcst_infos : RcstInfoList) :
    Except SchedulerAbort SlotAssignmentRecord := do
  let record ← record.num_slot_to_chunk_list rcst_infos .SLOT_TYPE_REQUEST
  record.num_slot_to_chunk_list rcst_infos .SLOT_TYPE_DATA

end SlotAssignmentRecord

/-! ### Credits -/

/-- Credits by rate and by volume. -/
inductive CreditType
  | RB_CREDIT
  | VB_CREDIT
  deriving DecidableEq

/-- `struct Credit_entry`; `TTL` is an `int64_t`. -/
structure CreditEntry where
  rcst_id : RcstId
  credit_type : CreditType
  value : UInt64
  TTL : Int
  deriving DecidableEq

/-- `class Rcst_credit`. -/
abbrev RcstCredit := List CreditEntry

namespace RcstCredit

/-- The entry is the one of the terminal and the type. -/
def isEntry (rcst_id : RcstId) (type : CreditType) (e : CreditEntry) : Bool :=
  e.rcst_id = rcst_id ∧ e.credit_type = type

/-- The terminal has a credit of the type. -/
def credit_entry_exist (credits : RcstCredit) (rcst_id : RcstId) (type : CreditType) : Bool :=
  credits.any (isEntry rcst_id type)

/-- The first entry of an RCST and a type changed, or taken out. -/
def update (rcst_id : RcstId) (type : CreditType) (f : CreditEntry → Option CreditEntry) :
    RcstCredit → RcstCredit
  | [] => []
  | e :: es =>
    if isEntry rcst_id type e then (f e).toList ++ es else e :: update rcst_id type f es

/-- A credit grows. -/
def increase_credit_value (credits : RcstCredit) (rcst_id : RcstId) (type : CreditType)
    (value : UInt64) : RcstCredit :=
  update rcst_id type (fun e => some { e with value := e.value + value }) credits

/-- A credit shrinks, and its entry is removed at 0. -/
def decrease_credit_value (credits : RcstCredit) (rcst_id : RcstId) (type : CreditType)
    (value : UInt64) : RcstCredit :=
  update rcst_id type (fun e =>
    if e.value < value then some e
    else if e.value - value = 0 then none
    else some { e with value := e.value - value }) credits

/-- The value of a credit, 0 without an entry. -/
def get_credit_value (credits : RcstCredit) (rcst_id : RcstId) (type : CreditType) : UInt64 :=
  match credits.find? (isEntry rcst_id type) with
  | some e => e.value
  | none => 0

/-- A credit gets a value. -/
def set_credit_value (credits : RcstCredit) (rcst_id : RcstId) (type : CreditType)
    (value : UInt64) : RcstCredit :=
  update rcst_id type (fun e => some { e with value := value }) credits

/-- A credit of 0, unless there is an entry. -/
def create_credit_entry (credits : RcstCredit) (rcst_id : RcstId) (type : CreditType) : RcstCredit :=
  if credit_entry_exist credits rcst_id type then credits else credits ++ [⟨rcst_id, type, 0, 0⟩]

/-- The entry of a credit is removed. -/
def remove_credit_entry (credits : RcstCredit) (rcst_id : RcstId) (type : CreditType) : RcstCredit :=
  update rcst_id type (fun _ => none) credits

/-- A credit gets a time to live. -/
def set_ttl_value (credits : RcstCredit) (rcst_id : RcstId) (type : CreditType) (TTL : Int) :
    RcstCredit :=
  update rcst_id type (fun e => some { e with TTL := TTL }) credits

end RcstCredit

/-- A request for capacity by a terminal. -/
structure RcstCapacityRequest where
  rcst_id : RcstId
  capacity_request_value : UInt32

/-- `Heap_of_capacity_request`. -/
structure HeapOfCapacityRequest where
  rbdc_requests : List RcstCapacityRequest
  vbdc_requests : List RcstCapacityRequest
  avbdc_requests : List RcstCapacityRequest

/-- `struct Slot_need_and_given`. -/
structure SlotNeed where
  superframe_id : UInt8
  rcst_id : RcstId
  num_slots_needed : UInt16

/-- `Timeslot_scheduler`, with the iterators as positions in the list of RCSTs. -/
structure TimeslotScheduler where
  heap_of_capacity_request : HeapOfCapacityRequest
  rcst_credits : RcstCredit
  it_rcst_info_list : UInt8 → Nat
  it_rr : UInt8 → Nat
  slot_assignment_record : SlotAssignmentRecord

namespace TimeslotScheduler

variable (ncc : NccSlots) (rcst_infos : RcstInfoList)

/-- `for (superframe_id = 0; superframe_id <= max_superframe_id; superframe_id++)`, where the
    variable is a `uint8_t` and the bound is not. -/
def forSuperframes {σ : Type} (fuel : Nat) (body : UInt8 → σ → Except SchedulerAbort σ) (s : σ) :
    Except SchedulerAbort σ := do
  let r ← loop .diverges (fun (t : UInt8 × σ) =>
    if t.1.toUInt16 ≤ ncc.max_superframe_id then
      match body t.1 t.2 with
      | .error e => .error e
      | .ok s => .ok (true, (t.1 + 1, s))
    else .ok (false, t)) fuel (0, s)
  .ok r.2

/-! ### Request slots -/

/-- A round of the inner loop of `scheduling_for_req`. -/
def reqRound (superframe_id : UInt8) (s : SlotAssignmentRecord × Nat) :
    Except SchedulerAbort (Bool × (SlotAssignmentRecord × Nat)) := do
  let residual ← s.1.get_num_residual_slot superframe_id .SLOT_TYPE_REQUEST
  if residual > 0 then
    match rcst_infos.info_list[s.2]? with
    | none => .error .iterator
    | some r =>
      let it := RoundRobin.next rcst_infos.info_list.length s.2
      if superframe_id = r.superframe_id_for_transmission then
        if s.1.get_num_slot r.rcst_id .SLOT_TYPE_REQUEST ≥ 1 then .ok (false, (s.1, it))
        else do
          let added ← s.1.add_num_slot superframe_id r.rcst_id .SLOT_TYPE_REQUEST 1
          if added.1 = false then .error .accounting else .ok (true, (added.2, it))
      else .ok (true, (s.1, it))
  else .ok (false, s)

/-- The slots for requests, in each superframe round by round. -/
def scheduling_for_req (fuel : Nat) (s : SlotAssignmentRecord × (UInt8 → Nat)) :
    Except SchedulerAbort (SlotAssignmentRecord × (UInt8 → Nat)) :=
  forSuperframes ncc fuel (fun superframe_id s =>
    if rcst_infos.no_rcst superframe_id then .ok s
    else do
      let r ← loop .diverges (reqRound rcst_infos superframe_id) fuel (s.1, s.2 superframe_id)
      .ok (r.1, Function.update s.2 superframe_id r.2)) s

/-! ### CRA and RBDC -/

/-- The slots of the constant rates, where a terminal's rate fits. -/
def scheduling_for_rt (record : SlotAssignmentRecord) : Except SchedulerAbort SlotAssignmentRecord :=
  rcst_infos.info_list.foldlM (fun record r => do
    let num_slots_needed := ncc.bps_to_spf r.cra_level
    let num_slots_free ←
      record.get_num_residual_slot r.superframe_id_for_transmission .SLOT_TYPE_DATA
    if num_slots_free.toUInt32 ≥ num_slots_needed then do
      let added ← record.add_num_slot r.superframe_id_for_transmission r.rcst_id .SLOT_TYPE_DATA
        num_slots_needed.toUInt16
      .ok added.2
    else .error .config) record

/-- An RBDC request in the credits. -/
def recordRbdc (credits : RcstCredit) (request : RcstCapacityRequest) :
    Except SchedulerAbort RcstCredit :=
  let rcst_id := request.rcst_id
  if request.capacity_request_value = 0 then .ok (credits.remove_credit_entry rcst_id .RB_CREDIT)
  else
    match rcst_infos.get_rbdc_max rcst_id, rcst_infos.get_rbdc_timeout rcst_id with
    | some rbdc_max, some rbdc_timeout =>
      let rate_bps := if request.capacity_request_value > rbdc_max then rbdc_max
        else request.capacity_request_value
      let credits := credits.create_credit_entry rcst_id .RB_CREDIT
      let credits := credits.set_credit_value rcst_id .RB_CREDIT rate_bps.toUInt64
      -- a product of `int`
      let ttl := (ncc.num_of_frame_per_superframe.toNat * rbdc_timeout.toNat : Int).bmod (2 ^ 32)
      .ok (credits.set_ttl_value rcst_id .RB_CREDIT ttl)
    | _, _ => .error .config

/-- `(uint16_t) floor(num_slots_needed)`. -/
def slotsGiven (num_slots_needed : UInt32) : UInt16 :=
  if num_slots_needed < 65536 then num_slots_needed.toUInt16 else ncc.double_overflow num_slots_needed

/-- The loop over the RB credits. -/
def serveRbdc : RcstCredit → SlotAssignmentRecord →
    Except SchedulerAbort (RcstCredit × SlotAssignmentRecord)
  | [], record => .ok ([], record)
  | e :: es, record =>
    if e.credit_type = .RB_CREDIT then
      match rcst_infos.get_superframe_id_for_transmission e.rcst_id with
      | none => .error .config
      | some superframe_id => do
        let num_slots_given := slotsGiven ncc (ncc.bps_to_spf e.value.toUInt32)
        let added ← record.add_num_slot superframe_id e.rcst_id .SLOT_TYPE_DATA num_slots_given
        if ¬ e.TTL > 0 then .error .config
        else do
          let rest ← serveRbdc es added.2
          .ok (if e.TTL - 1 = 0 then rest.1 else { e with TTL := e.TTL - 1 } :: rest.1, rest.2)
    else do
      let rest ← serveRbdc es record
      .ok (e :: rest.1, rest.2)

/-- The rate requests are recorded and served. -/
def scheduling_for_rbdc (requests : List RcstCapacityRequest)
    (s : RcstCredit × SlotAssignmentRecord) :
    Except SchedulerAbort (RcstCredit × SlotAssignmentRecord) := do
  let credits ← requests.foldlM (recordRbdc ncc rcst_infos) s.1
  serveRbdc ncc rcst_infos credits s.2

/-! ### VBDC and AVBDC -/

/-- A volume request is added to the credit of its terminal. -/
def recordVbdc (credits : RcstCredit) (request : RcstCapacityRequest) : RcstCredit :=
  (credits.create_credit_entry request.rcst_id .VB_CREDIT).increase_credit_value request.rcst_id
    .VB_CREDIT request.capacity_request_value.toUInt64

/-- An absolute volume request replaces the credit of its terminal. -/
def recordAvbdc (credits : RcstCredit) (request : RcstCapacityRequest) : RcstCredit :=
  (credits.create_credit_entry request.rcst_id .VB_CREDIT).set_credit_value request.rcst_id
    .VB_CREDIT request.capacity_request_value.toUInt64

/-- What a VB credit asks for. -/
def slotNeed (e : CreditEntry) : Except SchedulerAbort (List SlotNeed) :=
  if e.credit_type = .VB_CREDIT then
    match rcst_infos.get_vbdc_max e.rcst_id with
    | none => .error .exit
    | some vbdc_max =>
      let num_slots_needed := (e.value / ncc.num_of_atm_per_slot.toUInt64).toUInt16
      match rcst_infos.get_superframe_id_for_transmission e.rcst_id with
      | none => .error .config
      | some superframe_id =>
        let num_slots_needed := if num_slots_needed > vbdc_max then vbdc_max else num_slots_needed
        .ok (if num_slots_needed > 0 then [⟨superframe_id, e.rcst_id, num_slots_needed⟩] else [])
  else .ok []

/-- The variables of the dispatching loop. -/
structure Dispatch where
  needs : List SlotNeed
  record : SlotAssignmentRecord
  credits : RcstCredit
  amount : Nat
  need_cnt : Nat

/-- The loop over the needs that grants each at most `min_grant_amount` slots; the needs of `d` are
    those in front. -/
def grantRound (superframe_id : UInt8) (min_grant_amount : Nat) :
    List SlotNeed → Dispatch → Except SchedulerAbort Dispatch
  | [], d => .ok d
  | need :: needs, d =>
    if need.superframe_id = superframe_id then
      if d.amount = 0 ∨ d.need_cnt = 0 then .ok { d with needs := d.needs ++ need :: needs }
      else if need.num_slots_needed = 0 then
        grantRound superframe_id min_grant_amount needs { d with needs := d.needs ++ [need] }
      else do
        let grant_amount := if need.num_slots_needed.toNat > min_grant_amount then min_grant_amount
          else need.num_slots_needed.toNat
        let added ← d.record.add_num_slot superframe_id need.rcst_id .SLOT_TYPE_DATA
          (.ofNat grant_amount)
        if ¬ d.amount ≥ grant_amount then .error .accounting
        else
          let credits := d.credits.decrease_credit_value need.rcst_id .VB_CREDIT
            (UInt32.ofNat grant_amount * ncc.num_of_atm_per_slot.toUInt32).toUInt64
          let left := need.num_slots_needed - .ofNat grant_amount
          grantRound superframe_id min_grant_amount needs
            { needs := if left = 0 then d.needs else d.needs ++ [{ need with num_slots_needed := left }]
              record := added.2
              credits := credits
              amount := d.amount - grant_amount
              need_cnt := if left = 0 then d.need_cnt - 1 else d.need_cnt }
    else grantRound superframe_id min_grant_amount needs { d with needs := d.needs ++ [need] }

/-- A round of `while (need_cnt > 0 && amount > 0)`. -/
def dispatchRound (superframe_id : UInt8) (d : Dispatch) :
    Except SchedulerAbort (Bool × Dispatch) :=
  if d.need_cnt > 0 ∧ d.amount > 0 then do
    let min_grant_amount := if d.amount / d.need_cnt = 0 then 1 else d.amount / d.need_cnt
    let d ← grantRound ncc superframe_id min_grant_amount d.needs { d with needs := [] }
    .ok (true, d)
  else .ok (false, d)

/-- One superframe of the dispatching. -/
def dispatch (fuel : Nat) (superframe_id : UInt8)
    (s : List SlotNeed × RcstCredit × SlotAssignmentRecord) :
    Except SchedulerAbort (List SlotNeed × RcstCredit × SlotAssignmentRecord) :=
  if rcst_infos.no_rcst superframe_id then .ok s
  else do
    let amount ← s.2.2.get_num_residual_slot superframe_id .SLOT_TYPE_DATA
    let d ← loop .diverges (dispatchRound ncc superframe_id) fuel
      { needs := s.1, record := s.2.2, credits := s.2.1, amount := amount.toNat
        need_cnt := s.1.countP fun need => need.superframe_id = superframe_id }
    .ok (d.needs, d.credits, d.record)

/-- The volume requests are recorded and served. -/
def scheduling_for_vbdc_and_avbdc (fuel : Nat) (heap : HeapOfCapacityRequest)
    (s : RcstCredit × SlotAssignmentRecord) :
    Except SchedulerAbort (RcstCredit × SlotAssignmentRecord) :=
  let credits := heap.vbdc_requests.foldl recordVbdc s.1
  let credits := heap.avbdc_requests.foldl recordAvbdc credits
  -- the history of the requests divides by the cells of a slot for every RCST
  if rcst_infos.info_list ≠ [] ∧ ncc.num_of_atm_per_slot = 0 then .error .division
  else do
    let needs ← credits.mapM (slotNeed ncc rcst_infos)
    let r ← forSuperframes ncc fuel (dispatch ncc rcst_infos fuel) (needs.flatten, credits, s.2)
    .ok r.2

/-! ### FCA -/

/-- The equal shares of `scheduling_for_fca_rr`. -/
def fcaShare (superframe_id : UInt8) (num_slots : UInt16) (s : RcstCredit × SlotAssignmentRecord)
    (r : RcstInfo) : Except SchedulerAbort (RcstCredit × SlotAssignmentRecord) :=
  if RcstInfoList.active superframe_id r then do
    let added ← s.2.add_num_slot superframe_id r.rcst_id .SLOT_TYPE_DATA num_slots
    let atm_cell_per_rcst := num_slots.toUInt32 * ncc.num_of_atm_per_slot.toUInt32
    let credit_value := s.1.get_credit_value r.rcst_id .VB_CREDIT
    let amount_credit_decreased : UInt32 :=
      if credit_value > atm_cell_per_rcst.toUInt64 then atm_cell_per_rcst else credit_value.toUInt32
    .ok (s.1.decrease_credit_value r.rcst_id .VB_CREDIT amount_credit_decreased.toUInt64, added.2)
  else .ok s

/-- A round of the loop that deals out single slots. -/
def fcaRound (superframe_id : UInt8) (s : (RcstCredit × SlotAssignmentRecord) × Nat) :
    Except SchedulerAbort (Bool × ((RcstCredit × SlotAssignmentRecord) × Nat)) := do
  let residual ← s.1.2.get_num_residual_slot superframe_id .SLOT_TYPE_DATA
  if residual > 0 then
    match rcst_infos.info_list[s.2]? with
    | none => .error .iterator
    | some r =>
      let it := RoundRobin.next rcst_infos.info_list.length s.2
      if RcstInfoList.active superframe_id r then do
        let added ← s.1.2.add_num_slot superframe_id r.rcst_id .SLOT_TYPE_DATA 1
        let credit_value := s.1.1.get_credit_value r.rcst_id .VB_CREDIT
        let amount_credit_decreased : UInt64 := if credit_value ≥ 2 then 2 else 0
        .ok (true,
          ((s.1.1.decrease_credit_value r.rcst_id .VB_CREDIT amount_credit_decreased, added.2), it))
      else .ok (true, (s.1, it))
  else .ok (false, s)

/-- What is left of each superframe is shared by its synchronised terminals. -/
def scheduling_for_fca_rr (fuel : Nat) (s : (RcstCredit × SlotAssignmentRecord) × (UInt8 → Nat)) :
    Except SchedulerAbort ((RcstCredit × SlotAssignmentRecord) × (UInt8 → Nat)) :=
  forSuperframes ncc fuel (fun superframe_id s =>
    let num_active_rcsts := rcst_infos.active_rcst_amount superframe_id
    if num_active_rcsts = 0 then .ok s
    else do
      let remainder_slots ← s.1.2.get_num_residual_slot superframe_id .SLOT_TYPE_DATA
      if remainder_slots > 0 then do
        let t ← rcst_infos.info_list.foldlM
          (fcaShare ncc superframe_id (.ofNat (remainder_slots.toNat / num_active_rcsts))) s.1
        let r ← loop .diverges (fcaRound rcst_infos superframe_id) fuel (t, s.2 superframe_id)
        .ok (r.1, Function.update s.2 superframe_id r.2)
      else .ok s) s

/-! ### The whole scheduling -/

/-- The passes that count slots. -/
def passes (fuel : Nat) (s : TimeslotScheduler) : Except SchedulerAbort TimeslotScheduler := do
  let req ← scheduling_for_req ncc rcst_infos fuel (s.slot_assignment_record.init, s.it_rcst_info_list)
  let record ← scheduling_for_rt ncc rcst_infos req.1
  let rbdc ← scheduling_for_rbdc ncc rcst_infos s.heap_of_capacity_request.rbdc_requests
    (s.rcst_credits, record)
  let vbdc ← scheduling_for_vbdc_and_avbdc ncc rcst_infos fuel s.heap_of_capacity_request rbdc
  let fca ← if ncc.fca_turned_on then scheduling_for_fca_rr ncc rcst_infos fuel (vbdc, s.it_rr)
    else .ok (vbdc, s.it_rr)
  .ok { s with
    rcst_credits := fca.1.1
    it_rcst_info_list := req.2
    it_rr := fca.2
    slot_assignment_record := fca.1.2 }

/-- `Timeslot_scheduler::scheduling`. -/
def scheduling (fuel : Nat) (s : TimeslotScheduler) : Except SchedulerAbort TimeslotScheduler := do
  let s ← passes ncc rcst_infos fuel s
  let record ← s.slot_assignment_record.set_up_slot_assignment rcst_infos
  .ok { s with
    slot_assignment_record := record
    heap_of_capacity_request := ⟨[], [], []⟩ }

end TimeslotScheduler

/-! ### What a plan is -/

/-- The slot numbers of a chunk. -/
def SlotAssignment.slots (c : SlotAssignment) : Finset Nat :=
  Finset.Ico c.start_slot.toNat (c.start_slot.toNat + c.assignment_count.toNat + 1)

namespace SlotAssignmentRecord

variable (record : SlotAssignmentRecord) (rcst_infos : RcstInfoList)

/-- The slots given to an RCST. -/
def givenTo (type : SlotType) (rcst_id : RcstId) : Nat :=
  ((record.slot_chunk_list type).map fun c => if c.rcst_id = rcst_id then c.slots.card else 0).sum

/-- The slots given in a superframe. -/
def givenIn (type : SlotType) (superframe_id : UInt8) : Nat :=
  ((rcst_infos.info_list.filter fun r => r.superframe_id_for_transmission = superframe_id).map
    fun r => record.givenTo type r.rcst_id).sum

/-- The chunks that RCSTs of a superframe send in. -/
def chunksIn (superframe_id : UInt8) : List SlotAssignment :=
  (record.slot_chunk_list .SLOT_TYPE_REQUEST ++ record.slot_chunk_list .SLOT_TYPE_DATA).filter
    fun c => rcst_infos.get_superframe_id_for_transmission c.rcst_id = some superframe_id

/-- The plan is free of conflicts and complete; `counted` is the record behind the passes. -/
structure Plan (counted : SlotAssignmentRecord) : Prop where
  known : ∀ type, ∀ c ∈ record.slot_chunk_list type, ∃ r ∈ rcst_infos.info_list, c.rcst_id = r.rcst_id
  disjoint : ∀ superframe_id, (record.chunksIn rcst_infos superframe_id).Pairwise fun c d =>
    Disjoint c.slots d.slots
  request_range : ∀ c ∈ record.slot_chunk_list .SLOT_TYPE_REQUEST,
    c.slots ⊆ Finset.Ico 0 (record.num_total_slot_of .SLOT_TYPE_REQUEST).toNat
  data_range : ∀ c ∈ record.slot_chunk_list .SLOT_TYPE_DATA,
    c.slots ⊆ Finset.Ico (record.num_total_slot_of .SLOT_TYPE_REQUEST).toNat
      ((record.num_total_slot_of .SLOT_TYPE_REQUEST).toNat +
        (record.num_total_slot_of .SLOT_TYPE_DATA).toNat)
  given_counted : ∀ r ∈ rcst_infos.info_list, ∀ type,
    record.givenTo type r.rcst_id = (counted.get_num_slot r.rcst_id type).toNat
  total : ∀ type, ∀ superframe_id ≤ MAX_SUPERFRAME_ID,
    record.givenIn rcst_infos type superframe_id +
      (record.num_residual_slot type superframe_id).toNat = (record.num_total_slot_of type).toNat

end SlotAssignmentRecord

/-- A configuration that fits the arrays and the slot numbers, iterators in the list, and loops with
    enough rounds. -/
structure TimeslotScheduler.Fits (ncc : NccSlots) (rcst_infos : RcstInfoList) (fuel : Nat)
    (s : TimeslotScheduler) : Prop where
  max_superframe_id : ncc.max_superframe_id.toNat ≤ 254
  superframe_id : ∀ r ∈ rcst_infos.info_list, r.superframe_id_for_transmission ≤ MAX_SUPERFRAME_ID
  num_total_slot : (s.slot_assignment_record.num_total_slot_of .SLOT_TYPE_REQUEST).toNat +
    (s.slot_assignment_record.num_total_slot_of .SLOT_TYPE_DATA).toNat < 2 ^ 16
  it_rcst_info_list : rcst_infos.info_list ≠ [] →
    ∀ superframe_id, s.it_rcst_info_list superframe_id < rcst_infos.info_list.length
  it_rr : rcst_infos.info_list ≠ [] →
    ∀ superframe_id, s.it_rr superframe_id < rcst_infos.info_list.length
  fuel : 2 ^ 16 * (rcst_infos.info_list.length + 1) ≤ fuel

end Dvb
