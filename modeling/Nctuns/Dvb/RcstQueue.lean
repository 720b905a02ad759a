import Mathlib.Algebra.Order.Ring.Int
import Mathlib.Logic.Function.Iterate
import Nctuns.Lib.Run

/-!
# Return link queues of an RCST

The queues `Rcst_queue_rt`, `Rcst_queue_vrrt`, `Rcst_queue_vrjt` and `Rcst_queue_jt` over
`Rcst_queue_basic` (`ret/queue/`): cells wait in a queue, are requested slot by slot, and leave in the
slots that the NCC grants. Only the numbers of cells are kept, not the cells.
-/

namespace Dvb

/-- `struct Frame_ident`. -/
structure FrameIdent where
  superframe_count : UInt16
  frame_number : UInt8
  deriving DecidableEq

/-- The last number of a superframe. -/
abbrev MAX_SUPERFRAME_COUNT : UInt16 := 65535

/-- The part of `Ncc_config` that the queues use; the two conversions between bit rates and slots of a
    frame compute in floating point. -/
structure NccConfig where
  num_of_atm_per_slot : UInt16
  num_of_frame_per_superframe : UInt16
  bps_to_spf : UInt32 → UInt32
  spf_to_bps : UInt32 → UInt32

namespace NccConfig

/-- The frame behind a frame. -/
def next_frame (c : NccConfig) (frame : FrameIdent) : FrameIdent :=
  if (frame.frame_number.toNat : Int) ≠ c.num_of_frame_per_superframe.toNat - 1 then
    { frame with frame_number := frame.frame_number + 1 }
  else
    { superframe_count :=
        if frame.superframe_count = MAX_SUPERFRAME_COUNT then 0 else frame.superframe_count + 1
      frame_number := 0 }

/-- The frame `num` frames behind a frame. -/
def frame_add (c : NccConfig) (frame : FrameIdent) (num : UInt32) : FrameIdent :=
  c.next_frame^[num.toNat] frame

end NccConfig

/-- The four kinds of queues. -/
inductive RcstQueueType
  | RT
  | VR_RT
  | VR_JT
  | JT
  deriving DecidableEq

/-- Demands by rate and by queue length. -/
inductive RcstQueueDemandType
  | QD_RATE
  | QD_QUEUE_LEN
  deriving DecidableEq

/-- What stops a queue: an assertion about its arguments, cells that are not there, a demand list
    whose nodes are freed, or a division by zero. -/
inductive QueueAbort
  | assertion
  | missing
  | freed
  | division
  deriving DecidableEq

/-- `struct atm_buffer`: the number of cells in `atm_list`. -/
structure AtmBuffer where
  frame_in_which_buffer_created : FrameIdent
  atm_cnt : Nat
  deriving DecidableEq

/-- `struct pkt_demand`. -/
structure PktDemand where
  frame : FrameIdent
  require_slot : UInt32
  deriving DecidableEq

/-- A queue, with the fields of all four classes. -/
structure RcstQueue where
  _queue_type : RcstQueueType
  _ncc_config : NccConfig
  _atm_cell_per_slot : UInt32
  _max_queue_len : UInt32
  _queue_len : UInt32
  _next_demand_cell : UInt32
  _next_notice_ctrl_len : UInt32
  _buffers : List AtmBuffer
  /-- The list at `_demand_head`; `none` when its nodes are freed and the pointers still there. -/
  _demand : Option (List PktDemand)
  _cra_demand : List PktDemand
  _requested_before_msl : UInt32
  _cra_rate : UInt32
  _max_rbdc_rate : UInt32
  _rbdc_timeout : UInt32
  _rbdc_timer : UInt32
  _last_rbdc : UInt32
  _last_rbdc_frame : FrameIdent
  /-- Not in the source: whether `_next_demand_cell` was ever taken below zero. -/
  wrapped : Bool

namespace RcstQueue

/-- The whole slots of the cells that are to be asked for next. -/
def _next_demand_slot (q : RcstQueue) : UInt32 := q._next_demand_cell / q._atm_cell_per_slot

/-- `_next_demand_cell -= slots * _atm_cell_per_slot`. -/
def takeDemand (q : RcstQueue) (slots : UInt32) : RcstQueue :=
  { q with
    _next_demand_cell := q._next_demand_cell - slots * q._atm_cell_per_slot
    wrapped := q.wrapped || decide (q._next_demand_cell < slots * q._atm_cell_per_slot) }

/-- `_next_demand_cell += slots * _atm_cell_per_slot`. -/
def returnDemand (q : RcstQueue) (slots : UInt32) : RcstQueue :=
  { q with _next_demand_cell := q._next_demand_cell + slots * q._atm_cell_per_slot }

/-- There is a demand for the frame. -/
def _search_demand (l : List PktDemand) (target_frame : FrameIdent) : Bool :=
  l.any fun d => d.frame = target_frame

/-! ### `Rcst_queue_basic` -/

/-- `Rcst_queue_basic::push` of a list of `num` cells. -/
def push (q : RcstQueue) (num : Nat) (now_positive : Bool) (current_frame : FrameIdent) : RcstQueue :=
  if q._queue_len + UInt32.ofNat num ≤ q._max_queue_len then
    let q := { q with
      _queue_len := q._queue_len + UInt32.ofNat num
      _next_demand_cell := q._next_demand_cell + UInt32.ofNat num }
    let atm_buf : AtmBuffer := ⟨if now_positive then current_frame else ⟨0, 0⟩, num⟩
    match q._buffers.getLast? with
    | none => { q with _buffers := [atm_buf] }
    | some tail =>
      if tail.frame_in_which_buffer_created = current_frame then
        { q with _buffers := q._buffers.dropLast ++ [{ tail with atm_cnt := tail.atm_cnt + num }] }
      else { q with _buffers := q._buffers ++ [atm_buf] }
  else q

/-- `Rcst_queue_basic::shift`: whether there is a cell. -/
def shift (q : RcstQueue) : Except QueueAbort (Bool × RcstQueue) :=
  if q._queue_len = 0 then
    if q._buffers = [] then .ok (false, q) else .error .assertion
  else
    match q._buffers with
    | [] => .error .missing
    | b :: bs =>
      if b.atm_cnt = 0 then .error .missing
      else
        .ok (true,
          { q with
            _queue_len := q._queue_len - 1
            _buffers := if b.atm_cnt - 1 = 0 then bs else { b with atm_cnt := b.atm_cnt - 1 } :: bs })

/-- `Rcst_queue_basic::clean_demand`. -/
def clean_demand (q : RcstQueue) : Except QueueAbort RcstQueue :=
  match q._demand with
  | none => .error .freed
  | some [] => .ok q
  -- the nodes are freed, `_demand_head` and `_demand_tail` stay
  | some (_ :: _) => .ok { q with _demand := none }

/-- `Rcst_queue_basic::clean_queue`. -/
def clean_queue (q : RcstQueue) : RcstQueue := { q with _buffers := [], _queue_len := 0 }

/-- The loop of `_drop_head`: the buffers that stay, and how many cells were not found. -/
def dropBuffers : List AtmBuffer → UInt32 → List AtmBuffer × UInt32
  | [], remain => ([], remain)
  | b :: bs, remain =>
    if remain > 0 then
      if UInt32.ofNat b.atm_cnt ≤ remain then dropBuffers bs (remain - UInt32.ofNat b.atm_cnt)
      else ({ b with atm_cnt := b.atm_cnt - remain.toNat } :: bs, 0)
    else (b :: bs, remain)

/-- `Rcst_queue_basic::_drop_head`. -/
def _drop_head (q : RcstQueue) (amount : UInt32) : Except QueueAbort RcstQueue :=
  let r := dropBuffers q._buffers amount
  if r.2 ≠ 0 then .error .missing
  else .ok { q with _buffers := r.1, _queue_len := q._queue_len - amount }

/-! ### `Rcst_queue_rt` -/

/-- The demand of a real-time queue is its queue length. -/
def Rt.compute_demand (q : RcstQueue) (type : RcstQueueDemandType) (current_frame : FrameIdent) :
    Except QueueAbort (UInt32 × RcstQueue) :=
  match type with
  | .QD_QUEUE_LEN =>
    if q._atm_cell_per_slot = 0 then .error .division
    else
      match q._demand with
      | none => .error .freed
      | some demands =>
        let limit := q._ncc_config.bps_to_spf q._cra_rate
        let require := if q._next_demand_slot > limit then limit else q._next_demand_slot
        if _search_demand demands current_frame then .error .assertion
        else
          let q := { q with _demand := some (demands ++ [PktDemand.mk current_frame require]) }
          .ok (0, q.takeDemand require)
  | .QD_RATE => .ok (0, q)

/-- `Rcst_queue_rt::grant_demand`: the slots granted. -/
def Rt.grant_demand (q : RcstQueue) (amount : UInt32) (frame : FrameIdent) :
    Except QueueAbort (UInt32 × RcstQueue) :=
  match q._demand with
  | none => .error .freed
  | some [] => .ok (0, q)
  | some (head :: rest) =>
    if head.frame ≠ frame then .ok (0, q)
    else if head.require_slot > amount then
      if amount ≠ 0 then .error .assertion
      else
        match q._drop_head (head.require_slot * q._atm_cell_per_slot) with
        | .error e => .error e
        | .ok q => .ok (amount, { q with _next_notice_ctrl_len := amount, _demand := some rest })
    else
      .ok (head.require_slot,
        { q with _next_notice_ctrl_len := head.require_slot, _demand := some rest })

/-! ### `Rcst_queue_vrjt` -/

/-- The slots that an RBDC request asks for, and the queue with the timer set. -/
def rbdcRequire (q : RcstQueue) (amount : UInt32) : Except QueueAbort (UInt32 × RcstQueue) :=
  if amount > 0 then
    let rbdc_limit := q._ncc_config.bps_to_spf q._max_rbdc_rate
    let require := if q._next_demand_slot > rbdc_limit then rbdc_limit else q._next_demand_slot
    if ¬ amount ≥ require then .error .assertion
    else .ok (require, { q with _last_rbdc := require, _rbdc_timer := q._rbdc_timeout })
  else
    let limit := if q._rbdc_timer > 0 then q._last_rbdc else 0
    .ok (if q._next_demand_slot > limit then limit else q._next_demand_slot, q)

/-- What both queues with RBDC do with the request. -/
def rbdcDemand (q : RcstQueue) (amount : UInt32) (current_frame : FrameIdent) (msl : UInt32) :
    Except QueueAbort (UInt32 × RcstQueue) :=
  let target_frame :=
    if msl > 0 then q._ncc_config.frame_add current_frame msl
    else q._ncc_config.frame_add q._last_rbdc_frame 1
  match q.rbdcRequire amount with
  | .error e => .error e
  | .ok (require, q) =>
    let q := { q with
      _last_rbdc_frame := target_frame
      _rbdc_timer := if q._rbdc_timer > 0 then q._rbdc_timer - 1 else 0 }
    let q := q.takeDemand require
    match q._demand with
    | none => .error .freed
    | some demands =>
      if _search_demand demands target_frame then .error .assertion
      else
        let q := if require > 0 then { q with _demand := some (demands ++ [PktDemand.mk target_frame require]) }
          else q
        .ok (if amount > 0 then q._ncc_config.spf_to_bps require else 0, q)

/-- The demand of a queue with variable rate and jitter is by rate. -/
def Vrjt.compute_demand (q : RcstQueue) (type : RcstQueueDemandType) (amount : UInt32)
    (current_frame : FrameIdent) (msl : UInt32) : Except QueueAbort (UInt32 × RcstQueue) :=
  match type with
  | .QD_QUEUE_LEN => .ok (0, q)
  | .QD_RATE =>
    if q._atm_cell_per_slot = 0 then .error .division
    else q.rbdcDemand amount current_frame msl

/-- `Rcst_queue_vrjt::grant_demand`: slots that are not granted are asked for again. -/
def Vrjt.grant_demand (q : RcstQueue) (amount : UInt32) (frame : FrameIdent) :
    Except QueueAbort (UInt32 × RcstQueue) :=
  match q._demand with
  | none => .error .freed
  | some [] => .ok (0, q)
  | some (head :: rest) =>
    if head.frame ≠ frame then .ok (0, q)
    else
      let spent := if head.require_slot > amount then amount else head.require_slot
      let q := if head.require_slot > amount then q.returnDemand (head.require_slot - amount) else q
      .ok (spent,
        { q with _next_notice_ctrl_len := q._next_notice_ctrl_len + spent, _demand := some rest })

/-! ### `Rcst_queue_vrrt` -/

/-- The demand of a real-time queue with variable rate is by rate. -/
def Vrrt.compute_demand (q : RcstQueue) (type : RcstQueueDemandType) (amount : UInt32)
    (current_frame : FrameIdent) (msl : UInt32) : Except QueueAbort (UInt32 × RcstQueue) :=
  match type with
  | .QD_QUEUE_LEN => .ok (0, q)
  | .QD_RATE =>
    if q._atm_cell_per_slot = 0 then .error .division
    else
      let cra_limit := q._ncc_config.bps_to_spf q._cra_rate
      let require := if q._next_demand_slot > cra_limit then cra_limit else q._next_demand_slot
      let q := q.takeDemand require
      if _search_demand q._cra_demand current_frame then .error .assertion
      else
        let q := { q with _cra_demand := q._cra_demand ++ [PktDemand.mk current_frame require] }
        q.rbdcDemand amount current_frame msl

/-- `Rcst_queue_vrrt::grant_demand`: cells of slots that are not granted are dropped. -/
def Vrrt.grant_demand (q : RcstQueue) (cra : Bool) (amount : UInt32) (frame : FrameIdent) :
    Except QueueAbort (UInt32 × RcstQueue) :=
  match if cra then some q._cra_demand else q._demand with
  | none => .error .freed
  | some [] => .ok (0, q)
  | some (head :: rest) =>
    if head.frame ≠ frame then .ok (0, q)
    else
      match if head.require_slot > amount then
          q._drop_head ((head.require_slot - amount) * q._atm_cell_per_slot) else .ok q with
      | .error e => .error e
      | .ok q =>
        let spent := if head.require_slot > amount then amount else head.require_slot
        let q := { q with _next_notice_ctrl_len := q._next_notice_ctrl_len + spent }
        .ok (spent, if cra then { q with _cra_demand := rest } else { q with _demand := some rest })

/-! ### `Rcst_queue_jt` -/

/-- The demand of a queue with jitter is its queue length. -/
def Jt.compute_demand (q : RcstQueue) (type : RcstQueueDemandType) (available_slot : UInt32)
    (current_frame : FrameIdent) (msl : UInt32) (request_lost : Bool) :
    Except QueueAbort (UInt32 × RcstQueue) :=
  if msl = 0 ∧ available_slot > 0 then .error .assertion
  else
    match type with
    | .QD_RATE => .ok (0, q)
    | .QD_QUEUE_LEN =>
      if q._atm_cell_per_slot = 0 then .error .division
      else
        let q := if request_lost then
            { q.returnDemand q._requested_before_msl with _requested_before_msl := 0 } else q
        let request := if q._next_demand_slot > available_slot then available_slot
          else q._next_demand_slot
        if request > 0 then
          let target_frame := q._ncc_config.frame_add current_frame msl
          match q._demand with
          | none => .error .freed
          | some demands =>
            if _search_demand demands target_frame then .error .assertion
            else
              let q := { q with _demand := some (demands ++ [PktDemand.mk target_frame request]) }
              .ok (request, q.takeDemand request)
        else .ok (request, q.takeDemand request)

/-- The loop of `Rcst_queue_jt::grant_demand` over the demands: what is left of them, and of the
    slots. -/
def grantYoung : List PktDemand → UInt32 → List PktDemand × UInt32
  | [], remain => ([], remain)
  | d :: ds, remain =>
    if remain > 0 then
      if remain ≥ d.require_slot then grantYoung ds (remain - d.require_slot)
      else ({ d with require_slot := d.require_slot - remain } :: ds, 0)
    else (d :: ds, remain)

/-- The last part of `Rcst_queue_jt::grant_demand`, when `remain` of the slots are left. -/
def Jt.grantDemands (q : RcstQueue) (amount remain : UInt32) :
    Except QueueAbort (UInt32 × RcstQueue) :=
  match q._demand with
  | none => .error .freed
  | some demands =>
    let r := grantYoung demands remain
    .ok (amount - r.2,
      { q with
        _demand := some r.1
        _next_notice_ctrl_len := q._next_notice_ctrl_len + (amount - r.2) })

/-- `Rcst_queue_jt::grant_demand`: old requests first, then cells not requested yet, then the
    demands. -/
def Jt.grant_demand (q : RcstQueue) (amount : UInt32) : Except QueueAbort (UInt32 × RcstQueue) :=
  if ¬ q._queue_len ≥ amount then .error .assertion
  else if q._atm_cell_per_slot = 0 then .error .division
  else
    let given := if q._requested_before_msl > amount then amount else q._requested_before_msl
    let q := { q with _requested_before_msl := q._requested_before_msl - given }
    let remain := amount - given
    let given := if remain > q._next_demand_slot then q._next_demand_slot else remain
    Jt.grantDemands (q.takeDemand given) amount (remain - given)

/-- `Rcst_queue_jt::update_demand_list`. -/
def Jt.update_demand_list (q : RcstQueue) (frame : FrameIdent) : Except QueueAbort RcstQueue :=
  match q._demand with
  | none => .error .freed
  | some [] => .ok q
  | some (head :: rest) =>
    if head.frame = frame then
      .ok { q with
        _requested_before_msl := q._requested_before_msl + head.require_slot
        _demand := some rest }
    else .ok q

/-! ### All queues -/

/-- A new queue; `junk` is what the constructors leave uninitialised. -/
def init (type : RcstQueueType) (config : NccConfig) (max_queue_len cra_rate max_rbdc_rate
    rbdc_timeout : UInt32) (junk : UInt32) (junk_frame : FrameIdent) : RcstQueue where
  _queue_type := type
  _ncc_config := config
  _atm_cell_per_slot := config.num_of_atm_per_slot.toUInt32
  _max_queue_len := max_queue_len
  _queue_len := 0
  _next_demand_cell := 0
  _next_notice_ctrl_len := junk
  _buffers := []
  _demand := some []
  _cra_demand := []
  _requested_before_msl := 0
  _cra_rate := cra_rate
  _max_rbdc_rate := max_rbdc_rate
  _rbdc_timeout := rbdc_timeout
  _rbdc_timer := junk
  _last_rbdc := junk
  _last_rbdc_frame := junk_frame
  wrapped := false

/-- The demand of a queue, by its kind. -/
def compute_demand (q : RcstQueue) (type : RcstQueueDemandType) (amount : UInt32)
    (current_frame : FrameIdent) (msl : UInt32) (request_lost : Bool) :
    Except QueueAbort (UInt32 × RcstQueue) :=
  match q._queue_type with
  | .RT => Rt.compute_demand q type current_frame
  | .VR_RT => Vrrt.compute_demand q type amount current_frame msl
  | .VR_JT => Vrjt.compute_demand q type amount current_frame msl
  | .JT => Jt.compute_demand q type amount current_frame msl request_lost

/-- A grant for a queue, by its kind. -/
def grant_demand (q : RcstQueue) (cra : Bool) (amount : UInt32) (frame : FrameIdent) :
    Except QueueAbort (UInt32 × RcstQueue) :=
  match q._queue_type with
  | .RT => Rt.grant_demand q amount frame
  | .VR_RT => Vrrt.grant_demand q cra amount frame
  | .VR_JT => Vrjt.grant_demand q amount frame
  | .JT => Jt.grant_demand q amount

/-- The cells that `Rcst_queue_manager::shift` takes for one slot. -/
def shiftCells : Nat → RcstQueue → Except QueueAbort RcstQueue
  | 0, q => .ok q
  | n + 1, q =>
    match q.shift with
    | .error e => .error e
    | .ok (false, _) => .error .missing
    | .ok (true, q) => shiftCells n q

/-- `Rcst_queue_manager::shift` for a granted slot of `_atm_cell_per_slot` cells. -/
def shiftSlot (q : RcstQueue) : Except QueueAbort RcstQueue :=
  if ¬ q._atm_cell_per_slot ≤ q._queue_len then .error .missing
  else q.shiftCells q._atm_cell_per_slot.toNat

end RcstQueue

/-- A queue and the slots granted to it and not shifted yet. -/
structure QueueAccount where
  queue : RcstQueue
  granted : Nat

/-- What happens to a queue. -/
inductive QueueAction
  | push (num : Nat) (pos : 0 < num) (now_positive : Bool) (current_frame : FrameIdent)
  | compute_demand (type : RcstQueueDemandType) (amount : UInt32) (current_frame : FrameIdent)
      (msl : UInt32) (request_lost : Bool)
  | grant_demand (cra : Bool) (amount : UInt32) (frame : FrameIdent)
  | get_next_notice_ctrl_grant_len
  | update_demand_list (frame : FrameIdent)
  | clean_demand
  | clean_queue
  | shift

namespace QueueAccount

/-- One action, with the account beside the queue. -/
def step (s : QueueAccount) : QueueAction → Except QueueAbort QueueAccount
  | .push num _ now_positive current_frame =>
    .ok { s with queue := s.queue.push num now_positive current_frame }
  | .compute_demand type amount current_frame msl request_lost =>
    match s.queue.compute_demand type amount current_frame msl request_lost with
    | .error e => .error e
    | .ok (_, q) => .ok { s with queue := q }
  | .grant_demand cra amount frame =>
    match s.queue.grant_demand cra amount frame with
    | .error e => .error e
    | .ok (spent, q) => .ok { queue := q, granted := s.granted + spent.toNat }
  | .get_next_notice_ctrl_grant_len =>
    .ok { s with queue := { s.queue with _next_notice_ctrl_len := 0 } }
  | .update_demand_list frame =>
    match s.queue._queue_type with
    | .JT =>
      match RcstQueue.Jt.update_demand_list s.queue frame with
      | .error e => .error e
      | .ok q => .ok { s with queue := q }
    | _ => .ok s
  | .clean_demand =>
    match s.queue.clean_demand with
    | .error e => .error e
    | .ok q => .ok { s with queue := q }
  | .clean_queue => .ok { s with queue := s.queue.clean_queue }
  | .shift =>
    -- without a granted slot nothing is shifted
    if s.granted = 0 then .ok s
    else
      match s.queue.shiftSlot with
      | .error e => .error e
      | .ok q => .ok { queue := q, granted := s.granted - 1 }

/-- The slots of a demand list. -/
def slots (l : List PktDemand) : Nat := (l.map fun d => d.require_slot.toNat).sum

/-- Every cell of the queue is in exactly one place: not requested, in a demand, in an old request, or
    in a granted slot. -/
structure Balanced (s : QueueAccount) : Prop where
  account : ∃ demands, s.queue._demand = some demands ∧
    s.queue._queue_len.toNat = s.queue._next_demand_cell.toNat + s.queue._atm_cell_per_slot.toNat *
      (slots demands + slots s.queue._cra_demand + s.queue._requested_before_msl.toNat + s.granted)
  not_wrapped : s.queue.wrapped = false

/-- Nothing is cleaned that is not empty, and no packet that is taken makes the length wrap. -/
def Kept (s : QueueAccount) : QueueAction → Prop
  | .push num _ _ _ => s.queue._queue_len + UInt32.ofNat num ≤ s.queue._max_queue_len →
      s.queue._queue_len.toNat + num < 2 ^ 32
  | .clean_demand => s.queue._demand = some []
  | .clean_queue => s.queue._queue_len = 0
  | _ => True

instance Kept.decidable (s : QueueAccount) : (a : QueueAction) → Decidable (s.Kept a)
  | .push num _ _ _ => inferInstanceAs (Decidable (s.queue._queue_len + UInt32.ofNat num ≤
      s.queue._max_queue_len → s.queue._queue_len.toNat + num < 2 ^ 32))
  | .clean_demand => inferInstanceAs (Decidable (s.queue._demand = some []))
  | .clean_queue => inferInstanceAs (Decidable (s.queue._queue_len = 0))
  | .compute_demand .. => .isTrue trivial
  | .grant_demand .. => .isTrue trivial
  | .get_next_notice_ctrl_grant_len => .isTrue trivial
  | .update_demand_list _ => .isTrue trivial
  | .shift => .isTrue trivial

end QueueAccount

end Dvb
