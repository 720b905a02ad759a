import Nctuns.Dvb.RcstQueue

/-!
# Capacity requests

The demand of the VR-JT and JT queues that `Rcst_queue_manager` computes for a SAC slot, and the
capacity requests into which `Rcst_ctl` and `Sac` break it (`ret/queue/rcst_queue_manager.cc`,
`common/sac.cc`, `rcst/rcst_ctl.cc`).
-/

namespace Dvb

/-- The two scales of a request. -/
inductive ScalingFactor
  | SCALING_FACTOR_1
  | SCALING_FACTOR_16
  deriving DecidableEq, Repr

/-- What a scale stands for. -/
def ScalingFactor.value : ScalingFactor → Nat
  | .SCALING_FACTOR_1 => 1
  | .SCALING_FACTOR_16 => 16

/-- The kinds of requests. -/
inductive CapacityRequestType
  | VBDC
  | RBDC
  | AVBDC
  deriving DecidableEq, Repr

/-- A request for capacity. -/
structure CapacityRequest where
  scaling_factor : ScalingFactor
  capacity_request_type : CapacityRequestType
  channel_id : UInt8
  capacity_request_value : UInt8
  deriving DecidableEq, Repr

/-- How the allocation of capacity fails. -/
inductive SacHalt
  | assertion
  | diverges
  deriving DecidableEq, Repr

/-- What `value` is cut down by when it is too large for one request: `req_value` of `fill_req`, and
    its copy in `compute_demand_for_vrjt_jt`. -/
def req_value (value : UInt32) : UInt8 := if value / 16 > 255 then 255 else (value / 16).toUInt8

/-- What is left of `value` after a scaled request. -/
def unscaled (value : UInt32) : UInt32 :=
  let scaled_req_value := (req_value value).toUInt32 * 16
  if value > scaled_req_value then value - scaled_req_value else 0

/-! ## The SAC -/

/-- The fields `0` to `capacity_request_number` of `capacity_requests`. -/
structure Sac where
  capacity_requests : List CapacityRequest
  deriving DecidableEq, Repr

namespace Sac

/-- The number that stands for no request. -/
def NO_CAPACITY_REQUEST : UInt8 := 255

/-- No request. -/
def new : Sac := ⟨[]⟩

/-- The number of requests less one, as the field has it. -/
def capacity_request_number (s : Sac) : UInt8 :=
  if s.capacity_requests = [] then NO_CAPACITY_REQUEST
  else UInt8.ofNat (s.capacity_requests.length - 1)

/-- `Sac::add_capacity_request`. -/
def add_capacity_request (s : Sac) (sc_factor : ScalingFactor) (c_r_type : CapacityRequestType)
    (c_id c_r_value : UInt8) : Sac :=
  if c_id ≤ 15 ∧ (s.capacity_request_number = NO_CAPACITY_REQUEST ∨ s.capacity_request_number < 7) then
    ⟨s.capacity_requests ++ [⟨sc_factor, c_r_type, c_id, c_r_value⟩]⟩
  else s

/-- Whether `fill_req` finds no more room. -/
def isFull (s : Sac) (max_capacity_request_number : UInt8) : Bool :=
  decide (s.capacity_request_number ≥ max_capacity_request_number ∧
    s.capacity_request_number ≠ NO_CAPACITY_REQUEST)

/-- The loop of `fill_req`: the SAC, and the part of `value` that is discarded. -/
def fillLoop (type : CapacityRequestType) (channel_id max_capacity_request_number : UInt8) :
    Nat → UInt32 → Sac → Except SacHalt (Sac × UInt32)
  | 0, _, _ => .error .diverges
  | n + 1, value, s =>
    if value > 0 then
      if s.isFull max_capacity_request_number then .ok (s, value)
      else if value > 255 then
        fillLoop type channel_id max_capacity_request_number n (unscaled value)
          (s.add_capacity_request .SCALING_FACTOR_16 type channel_id (req_value value))
      else
        fillLoop type channel_id max_capacity_request_number n 0
          (s.add_capacity_request .SCALING_FACTOR_1 type channel_id value.toUInt8)
    else .ok (s, 0)

/-- `Sac::fill_req`. -/
def fill_req (s : Sac) (type : CapacityRequestType) (value : UInt32)
    (channel_id max_capacity_request_number : UInt8) : Except SacHalt (Sac × UInt32) :=
  if ¬ max_capacity_request_number < 8 then .error .assertion
  else if value = 0 ∧ type = .RBDC then
    .ok (s.add_capacity_request .SCALING_FACTOR_1 type channel_id 0, 0)
  else fillLoop type channel_id max_capacity_request_number (value.toNat + 1) value s

/-- The loop of `pad_dummy_req`. -/
def padLoop (max_capacity_request_number : UInt8) : Nat → Sac → Except SacHalt Sac
  | 0, _ => .error .diverges
  | n + 1, s =>
    if s.capacity_request_number < max_capacity_request_number then
      padLoop max_capacity_request_number n (s.add_capacity_request .SCALING_FACTOR_1 .VBDC 0 0)
    else .ok s

/-- `Sac::pad_dummy_req`. -/
def pad_dummy_req (s : Sac) (max_capacity_request_number : UInt8) : Except SacHalt Sac :=
  if ¬ max_capacity_request_number < 8 then .error .assertion
  else
    let s := if s.capacity_request_number = NO_CAPACITY_REQUEST then
      s.add_capacity_request .SCALING_FACTOR_1 .VBDC 0 0 else s
    s.padLoop max_capacity_request_number (max_capacity_request_number.toNat + 1)

end Sac

/-! ## The demand -/

/-- `struct queue_demand`: the rate in units of 2 kbit/s, the length in cells. -/
structure QueueDemand where
  rate : UInt64
  queue_len : UInt64
  deriving DecidableEq, Repr

/-- The part of `Rcst_queue_manager` that the demand depends on. -/
structure RcstQueueManager where
  _ncc_config : NccConfig
  vrjt : List RcstQueue
  jt : List RcstQueue
  _request_lost : Bool
  _next_request_is_avbdc : Bool

namespace RcstQueueManager

/-- `ceil(x / 2000.0)`; a quotient of two 32-bit numbers is never rounded across an integer. -/
def ceil2000 (x : UInt32) : UInt32 := if x % 2000 = 0 then x / 2000 else x / 2000 + 1

/-- The loop over the VR-JT queues: `required_rate` and the queues afterwards. -/
def computeRates (current_frame : FrameIdent) (msl : UInt32) :
    List RcstQueue → UInt32 → UInt32 → Except QueueAbort (UInt32 × List RcstQueue)
  | [], _, required_rate => .ok (required_rate, [])
  | q :: qs, available_rate, required_rate => do
    let (rate, q) ← q.compute_demand .QD_RATE available_rate current_frame msl false
    if ¬ available_rate ≥ rate then .error .assertion
    else
      let (required_rate, qs) ←
        computeRates current_frame msl qs (available_rate - rate) (required_rate + rate)
      .ok (required_rate, q :: qs)

/-- How many fields the copy of the loop of `fill_req` takes for a rate. -/
def sacTaken : Nat → UInt32 → UInt32 → Except QueueAbort UInt32
  | 0, _, _ => .error .missing
  | n + 1, value, sac_taken =>
    if value > 0 then sacTaken n (if value > 255 then unscaled value else 0) (sac_taken + 1)
    else .ok sac_taken

/-- The loop over the JT queues: `queue_len` and the queues afterwards. -/
def computeLengths (num_of_atm_per_slot : UInt16) (current_frame : FrameIdent) (msl : UInt32)
    (_request_lost : Bool) :
    List RcstQueue → UInt32 → UInt64 → Except QueueAbort (UInt64 × List RcstQueue)
  | [], _, queue_len => .ok (queue_len, [])
  | q :: qs, available_slot, queue_len => do
    let (require_slot, q) ←
      q.compute_demand .QD_QUEUE_LEN available_slot current_frame msl _request_lost
    if ¬ available_slot ≥ require_slot then .error .assertion
    else
      let (queue_len, qs) ← computeLengths num_of_atm_per_slot current_frame msl _request_lost qs
        (available_slot - require_slot)
        (queue_len + (require_slot * num_of_atm_per_slot.toUInt32).toUInt64)
      .ok (queue_len, q :: qs)

/-- `Rcst_queue_manager::compute_demand_for_vrjt_jt`. -/
def compute_demand_for_vrjt_jt (m : RcstQueueManager) (capacity_request_number : UInt8)
    (spent_rate : UInt32) (current_frame : FrameIdent) (msl : UInt32) :
    Except QueueAbort (QueueDemand × RcstQueueManager) :=
  let limit := 255 * 16 * 2000 * capacity_request_number.toUInt32
  if ¬ limit ≥ spent_rate then .error .assertion
  else do
    let (required_rate, vrjt) ←
      computeRates current_frame msl m.vrjt (limit - spent_rate) spent_rate
    let value := ceil2000 required_rate
    let sac_taken ← sacTaken (value.toNat + 1) value 0
    let sac_available := if capacity_request_number.toUInt32 > sac_taken then
      capacity_request_number.toUInt32 - sac_taken else 0
    let available_volumn := sac_available * 255 * 16
    if m._ncc_config.num_of_atm_per_slot = 0 then .error .division
    else
      let (queue_len, jt) ← computeLengths m._ncc_config.num_of_atm_per_slot current_frame msl
        m._request_lost m.jt (available_volumn / m._ncc_config.num_of_atm_per_slot.toUInt32) 0
      .ok (⟨value.toUInt64, queue_len⟩, { m with vrjt := vrjt, jt := jt })

end RcstQueueManager

/-- `Rcst_ctl::_pack_request_to_sac`: the SAC, and the parts of the rate and of the queue length that
    are discarded. -/
def _pack_request_to_sac (demand_to_send_in_next_frame : QueueDemand) (next_request_is_avbdc : Bool)
    (capacity_request_number : UInt8) : Except SacHalt (Sac × UInt32 × UInt32) := do
  let (sac, lost_rate) ←
    Sac.new.fill_req .RBDC demand_to_send_in_next_frame.rate.toUInt32 0 capacity_request_number
  let (sac, lost_len) ← sac.fill_req (if next_request_is_avbdc then .AVBDC else .VBDC)
    demand_to_send_in_next_frame.queue_len.toUInt32 0 capacity_request_number
  let sac ← sac.pad_dummy_req capacity_request_number
  .ok (sac, lost_rate, lost_len)

/-! ## What fits -/

/-- What the requests of the given types add up to. -/
def Sac.requested (s : Sac) (p : CapacityRequestType → Bool) : Nat :=
  ((s.capacity_requests.filter fun r => p r.capacity_request_type).map fun r =>
    r.capacity_request_value.toNat * r.scaling_factor.value).sum

/-- All of the demand is in the SAC. -/
def Fits (demand : QueueDemand) (next_request_is_avbdc : Bool) (capacity_request_number : UInt8) :
    Prop :=
  ∃ sac, _pack_request_to_sac demand next_request_is_avbdc capacity_request_number = .ok (sac, 0, 0) ∧
    sac.requested (· = .RBDC) = demand.rate.toNat ∧
    sac.requested (· ≠ .RBDC) = demand.queue_len.toNat

/-- The fields for a value: one for each 4080, and for what is left one or, if it is too large for an
    unscaled request and no multiple of 16, two. -/
def fieldsFor (value : Nat) : Nat :=
  value / 4080 + if value % 4080 = 0 then 0 else if value % 4080 ≤ 255 ∨ value % 16 = 0 then 1 else 2

namespace RcstQueueManager

/-- The rate that a VR-JT queue asks for. -/
def rateOf (q : RcstQueue) : UInt32 :=
  let rbdc_limit := q._ncc_config.bps_to_spf q._max_rbdc_rate
  q._ncc_config.spf_to_bps
    (if q._next_demand_slot > rbdc_limit then rbdc_limit else q._next_demand_slot)

/-- The slots that a JT queue asks for. -/
def slotsOf (request_lost : Bool) (q : RcstQueue) : UInt32 :=
  (if request_lost then q.returnDemand q._requested_before_msl else q)._next_demand_slot

/-- The rate that the queues ask for with `n` fields, in units of 2 kbit/s. -/
def waitingRate (m : RcstQueueManager) (n : Nat) (spent_rate : UInt32) : Nat :=
  (min (255 * 16 * 2000 * n) (spent_rate.toNat + (m.vrjt.map fun q => (rateOf q).toNat).sum) + 1999) /
    2000

/-- The cells that they ask for in the fields that the rate leaves. -/
def waitingCells (m : RcstQueueManager) (n : Nat) (spent_rate : UInt32) : Nat :=
  min ((n - fieldsFor (m.waitingRate n spent_rate)) * 4080 / m._ncc_config.num_of_atm_per_slot.toNat)
    (m.jt.map fun q => (slotsOf m._request_lost q).toNat).sum * m._ncc_config.num_of_atm_per_slot.toNat

/-- The queues are of the two types. -/
structure Typed (m : RcstQueueManager) : Prop where
  vrjt : ∀ q ∈ m.vrjt, q._queue_type = .VR_JT
  jt : ∀ q ∈ m.jt, q._queue_type = .JT

end RcstQueueManager

end Dvb
