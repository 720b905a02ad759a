import Nctuns.Aodv.Aodv
import Nctuns.Engine.Timer

/-!
# The timers of AODV

What `init` and the handlers do with the timers. A node runs as the other modules call it and as its
timers expire; the events of the heap move the clock.
-/

namespace Aodv

open Engine

/-- The timers that `init` starts. -/
inductive TimerName where
  | SendHello_timer
  | RT_timer
  | SendRREQ_timer
  | RecentRREQ_timer
  | AccRREQ_RERR_timer
  deriving DecidableEq, Repr

instance : Fintype TimerName where
  elems := {.SendHello_timer, .RT_timer, .SendRREQ_timer, .RecentRREQ_timer, .AccRREQ_RERR_timer}
  complete := by intro t; cases t <;> simp

/-- The periods, in ticks. -/
structure Periods where
  sendhello_timer_ : Nat
  route_check_timer_ : Nat
  rreq_check_timer_ : Nat
  recent_rreq_list_timer_ : Nat
  accumulated_rreq_rerr_timer_ : Nat
  link_fail_list_check_timer_ : Nat

/-- The defaults of `AODV.h`. -/
def Periods.defaults : Periods where
  sendhello_timer_ := 500000
  route_check_timer_ := 3000000
  rreq_check_timer_ := 500000
  recent_rreq_list_timer_ := 3000000
  accumulated_rreq_rerr_timer_ := 10000000
  link_fail_list_check_timer_ := 10000000

/-- `tmprandom` of `sendHello`. -/
def tmprandom (random : Nat) : Int := if random % 2 = 0 then random % 10000 else -(random % 10000)

/-- The timer that a handler starts again. -/
def Handler.timer : Handler → TimerName
  | .sendHello => .SendHello_timer
  | .RTTimer => .RT_timer
  | .RREQ_retry => .SendRREQ_timer
  | .CheckRecentRREQ => .RecentRREQ_timer
  | .ClearAccRREQ_RERR => .AccRREQ_RERR_timer
  | .CheckLinkFailList => .RecentRREQ_timer

/-- A node with its timers and what they call. -/
structure Node where
  aodv : AODV
  timers : Timers TimerName
  callOut : TimerName → Option Handler

variable (cfg : Config) (p : Periods)

/-- The time after which a handler runs again. -/
def Handler.time (s : AODV) (random : Nat) : Handler → Nat
  | .sendHello =>
    let interval := if s.rtable.rt_activeCnt = 0 then p.sendhello_timer_ else cfg.hello_interval_.toNat
    ((interval + tmprandom random) % 2 ^ 64).toNat
  | .RTTimer => p.route_check_timer_
  | .RREQ_retry => p.rreq_check_timer_
  | .CheckRecentRREQ => p.recent_rreq_list_timer_
  | .ClearAccRREQ_RERR => p.accumulated_rreq_rerr_timer_
  | .CheckLinkFailList => p.link_fail_list_check_timer_

namespace Node

/-- `setCallOutObj` and `start` of a timer. -/
def arm (n : Node) (t : TimerName) (h : Handler) (time : Nat) : Except Halt Node :=
  (fun timers => { n with timers := timers, callOut := Function.update n.callOut t (some h) }) <$>
    n.timers.start t time 0

/-- `AODV::init`. -/
def init (currentTime_ : Nat) (addr : TimerName → Nat) (mip : Addr) (random : Nat) :
    Except Halt Node := do
  let n : Node := ⟨AODV.init mip, Timers.new currentTime_ addr, fun _ => none⟩
  let n ← n.arm .SendHello_timer .sendHello (p.sendhello_timer_ + random % 100000)
  let n ← n.arm .RT_timer .RTTimer p.route_check_timer_
  let n ← n.arm .SendRREQ_timer .RREQ_retry p.rreq_check_timer_
  let n ← n.arm .RecentRREQ_timer .CheckRecentRREQ p.recent_rreq_list_timer_
  let n ← n.arm .AccRREQ_RERR_timer .ClearAccRREQ_RERR p.accumulated_rreq_rerr_timer_
  n.arm .RecentRREQ_timer .CheckLinkFailList p.link_fail_list_check_timer_

/-- What a call finds, with the time of the clock. -/
def env (n : Node) (e : Env) : Env := { e with now := .ofNat n.timers.currentTime_ }

/-- A handler: what it does, and the start of its timer. -/
def fire (n : Node) (e : Env) (random : Nat) (h : Handler) : Except Halt Node :=
  { n with aodv := h.body cfg (n.env e) n.aodv }.arm h.timer h (h.time cfg p n.aodv random)

/-- The first timer expires and its handler is called. -/
def expire (n : Node) (e : Env) (random : Nat) : Except Halt Node :=
  match n.timers.deqtimer with
  | .ok (t, timers) =>
    match n.callOut t with
    | some h => { n with timers := timers }.fire cfg p e random h
    | none => .ok { n with timers := timers }
  | .error err => .error err

/-- What happens to a node. -/
inductive Input where
  | call (e : Env) (c : Call)
  | expire (e : Env) (random : Nat)
  | deqheap (timeStamp_ : Nat)

/-- The node and its timers after an input. -/
def step (n : Node) : Input → Except Halt Node
  | .call e c => .ok { n with aodv := n.aodv.call cfg (n.env e) c }
  | .expire e random => n.expire cfg p e random
  | .deqheap timeStamp_ =>
    (fun timers => { n with timers := timers }) <$> n.timers.call (.deqheap timeStamp_)

/-! ## Sweeps -/

/-- A timer in the list calls the handler when it expires. -/
def Pending (n : Node) (h : Handler) : Prop :=
  ∃ l, PtrChain.IsChain n.timers.next_ep n.timers.timerHead_ l ∧ ∃ t ∈ l, n.callOut t = some h

/-- Both lists will be swept again. -/
def Maintained (n : Node) : Prop := n.Pending .CheckRecentRREQ ∧ n.Pending .CheckLinkFailList

end Node

end Aodv
