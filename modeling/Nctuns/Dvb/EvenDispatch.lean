import Nctuns.Dvb.RcstQueue
import Nctuns.Lib.MaxMin

/-!
# Slots for queues of one priority

`Rcst_queue_manager::_dispatch_evenly` and `_grant_demand_for_queue_evenly`
(`ret/queue/rcst_queue_manager.cc`): the slots that are available are granted in rounds to the queues
that still demand some.
-/

namespace Dvb

/-- What stops the manager: an assertion, a loop that does not end, or one of its queues. -/
inductive ManagerHalt
  | assertion
  | diverges
  | queue (abort : QueueAbort)
  deriving DecidableEq

/-- `demand[i]` and `cnt[i]`. -/
structure EvenShare where
  demand : UInt32
  cnt : UInt32
  deriving DecidableEq, Repr

namespace RcstQueueManager

/-- The smaller of two numbers. -/
def MIN (x y : UInt32) : UInt32 := if x < y then x else y

/-- The `for` loop of a round: the shares, `available` and `demand_cnt`. -/
def grantEach (min_grant_amount : UInt32) :
    List EvenShare → UInt32 → UInt32 → List EvenShare × UInt32 × UInt32
  | [], available, demand_cnt => ([], available, demand_cnt)
  | q :: qs, available, demand_cnt =>
    if available > 0 then
      let grant := MIN q.demand min_grant_amount
      let q := EvenShare.mk (q.demand - grant) (q.cnt + grant)
      let demand_cnt := if grant > 0 ∧ q.demand = 0 then demand_cnt - 1 else demand_cnt
      let r := grantEach min_grant_amount qs (available - grant) demand_cnt
      (q :: r.1, r.2)
    else (q :: qs, available, demand_cnt)

/-- The `while` loop. -/
def dispatchLoop : Nat → List EvenShare → UInt32 → UInt32 → Except ManagerHalt (List EvenShare)
  | 0, _, _, _ => .error .diverges
  | n + 1, qs, available, demand_cnt =>
    if available > 0 ∧ demand_cnt > 0 then
      -- without a slot for each queue the slots go to the first ones
      let min_grant_amount := if available / demand_cnt = 0 then 1 else available / demand_cnt
      let r := grantEach min_grant_amount qs available demand_cnt
      dispatchLoop n r.1 r.2.1 r.2.2
    else .ok qs

/-- `Rcst_queue_manager::_dispatch_evenly`. -/
def _dispatch_evenly (demand : List UInt32) (available : UInt32) : Except ManagerHalt (List UInt32) :=
  if demand = [] then .error .assertion
  else if available = 0 then .ok (demand.map fun _ => 0)
  else
    let demand_cnt := demand.foldl (fun cnt d => if d ≠ 0 then cnt + 1 else cnt) (0 : UInt32)
    let total := demand.foldl (fun total d => if d ≠ 0 then total + d else total) (0 : UInt32)
    if total ≤ available then .ok demand
    else do
      let qs ← dispatchLoop (available.toNat + 1) (demand.map fun d => ⟨d, 0⟩) available demand_cnt
      .ok (qs.map EvenShare.cnt)

/-- The loop of `_grant_demand_for_queue_evenly`: `remainder` and the queues afterwards. -/
def grantShares (frame : FrameIdent) :
    List RcstQueue → List UInt32 → UInt32 → Except ManagerHalt (UInt32 × List RcstQueue)
  | [], _, remainder => .ok (remainder, [])
  | queue :: queues, [], remainder => .ok (remainder, queue :: queues)
  | queue :: queues, cnt :: cnts, remainder =>
    if ¬ remainder ≥ cnt then .error .assertion
    else
      match queue.grant_demand false cnt frame with
      | .error e => .error (.queue e)
      | .ok (_, queue) => do
        let (remainder, queues) ← grantShares frame queues cnts (remainder - cnt)
        .ok (remainder, queue :: queues)

/-- `Rcst_queue_manager::_grant_demand_for_queue_evenly`. -/
def _grant_demand_for_queue_evenly (frame : FrameIdent) (available : UInt32) (queues : List RcstQueue)
    (demand : List UInt32) : Except ManagerHalt (UInt32 × List RcstQueue) := do
  let cnt ← _dispatch_evenly demand available
  let (remainder, queues) ← grantShares frame queues cnt available
  .ok (available - remainder, queues)

end RcstQueueManager

/-- The shares that are right for the demands: none above its demand, all that is available or demanded
    given away, and fair up to one slot. -/
structure SharedEvenly (demand cnt : List UInt32) (available : UInt32) : Prop where
  length : cnt.length = demand.length
  within : ∀ p ∈ demand.zip cnt, p.2 ≤ p.1
  spent : (cnt.map UInt32.toNat).sum = min available.toNat (demand.map UInt32.toNat).sum
  fair : MaxMin.Fair (fun p => p.1.toNat) (fun p => p.2.toNat) (demand.zip cnt)

end Dvb
