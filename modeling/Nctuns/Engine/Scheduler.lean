import Nctuns.Engine.Timer

/-!
# The scheduler

`scheduler.cc`: the main loop of the engine. Each round reads the events of the kernel, serves the
GUI, runs the event or the timer that is due first, and polls the modules. What the code outside the
engine does in a round is an input: a list of the calls it makes on the engine.
-/

namespace Engine

/-- `TICK` and the macro `MICRO_TO_TICK`, which computes with `double`. -/
structure Ticks where
  TICK : Nat
  MICRO_TO_TICK : Nat → Nat

/-- `enum tun_event_flag_enum`. -/
inductive TunFlag where
  | T0E_TIMEOUT
  | T0E_CHKTUN
  | T0E_CHK_CMDIPC
  | T0E_NOTICE_CHILD_PGID
  deriving DecidableEq

/-- `struct tun_event`, and the address of the event that is created for it. -/
structure TunEvent where
  flag : TunFlag
  value : Nat
  addr : Nat

/-- `scheduler`: `currentTime_` and the timers, the heap and the length of the simulation. -/
structure Scheduler (τ : Type*) extends Timers τ where
  simulateTime_ : Nat
  heap_ : HeapObject

/-- A call on the engine by the code outside it. -/
inductive EngineCall (τ : Type*) where
  | insertEvent (ep : Event)
  | start (t : τ) (time pero : Nat)
  | cancel (t : τ)
  | chkt0e (tes : List TunEvent)

/-- What the outside does in one round of `executeEvent`: `t0e` is read from the kernel, `gui` polls
    the GUI, `callouts` is what the kernel callouts write, `tunnel` is the address of the event for a
    tunnel that has packets, `handler` is done by the handler and `serve` by the polled modules. -/
structure Round (τ : Type*) where
  t0e : List TunEvent
  gui : List (EngineCall τ)
  callouts : List TunEvent
  tunnel : Option Nat
  handler : List (EngineCall τ)
  serve : List (EngineCall τ)

/-- Which of its branches a round takes. -/
inductive Pick where
  | heap
  | timer
  | idle
  deriving DecidableEq

variable {τ : Type*}

/-- An engine at time `0` with no events and no timers in its lists. -/
def Scheduler.new (simulateTime_ max_heap : Nat) (addr : τ → Nat) : Scheduler τ where
  toTimers := Timers.new 0 addr
  simulateTime_ := simulateTime_
  heap_ := HeapObject.new max_heap

/-- `scheduler::setEvent`. -/
def Scheduler.setEvent (s : Scheduler τ) (ep : Event) : Except Halt (Scheduler τ × Int) :=
  match s.heap_.insertEvent s.currentTime_ s.simulateTime_ (some ep) with
  | .ok (h, ret) => .ok ({ s with heap_ := h }, ret)
  | .error e => .error e

/-- The event that `readt0e` makes of one event of the kernel. -/
def tunTicks (K : Ticks) (now : Nat) (te : TunEvent) : Except Halt Event :=
  let ep := createEvent te.addr
  let ticks := if K.MICRO_TO_TICK te.value < now then now else K.MICRO_TO_TICK te.value
  let past := now / (1000 / K.TICK) > te.value
  match te.flag with
  | .T0E_CHK_CMDIPC =>
    if past then .error .kernelPast
    else .ok { ep with flag := .CMD_SERVER, timeStamp_ := (ticks + 1) % 2 ^ 64 }
  | .T0E_TIMEOUT =>
    if past then .error .kernelPast
    else .ok { ep with flag := .KTIMEOUT, timeStamp_ := ticks }
  | .T0E_NOTICE_CHILD_PGID =>
    if past then .error .kernelPast
    else .ok { ep with timeStamp_ := te.value }
  | .T0E_CHKTUN => .ok { ep with flag := .CHKTUN, timeStamp_ := now }

/-- One round of the loop of `readt0e`. -/
def Scheduler.readTunEvent (K : Ticks) (s : Scheduler τ) (te : TunEvent) :
    Except Halt (Scheduler τ) :=
  match tunTicks K s.currentTime_ te with
  | .error e => .error e
  | .ok ep =>
    match s.setEvent ep with
    | .error e => .error e
    | .ok (s', ret) =>
      if ret < 0 ∧ te.flag = .T0E_TIMEOUT then .error .kernelInsert
      else .ok s'

/-- `scheduler::readt0e`, for the events that are read successfully. -/
def Scheduler.readt0e (K : Ticks) (s : Scheduler τ) (tes : List TunEvent) : Except Halt (Scheduler τ) :=
  Run.exec (Scheduler.readTunEvent K) s tes

/-- `scheduler::chktunnel`: an event for a registered tunnel that has packets. -/
def Scheduler.chktunnel (s : Scheduler τ) : Option Nat → Except Halt (Scheduler τ)
  | none => .ok s
  | some addr => Prod.fst <$> s.setEvent { createEvent addr with timeStamp_ := s.currentTime_ }

/-- The branch that `executeEvent` chooses. -/
def Scheduler.pick (s : Scheduler τ) : Pick :=
  if s.heap_.numEvent_ > 0 then
    match s.timerHead_ with
    | some t =>
      if (s.heap_.eventHeap_ 1).timeStamp_ < s.ts t then .heap
      else if (s.heap_.eventHeap_ 1).timeStamp_ = s.ts t then
        if (s.heap_.eventHeap_ 1).priority_ ≥ (s.obj t).callout_event.priority_ then .heap
        else .timer
      else .timer
    | none => .heap
  else
    match s.timerHead_ with
    | some _ => .timer
    | none => .idle

/-- `scheduler::deqheap` up to the call of the handler: the event and the new state. -/
def Scheduler.deqheap (s : Scheduler τ) : Except Halt (Event × Scheduler τ) :=
  match s.heap_.dequeueEvent with
  | (none, _) => .error .nullDeref
  | (some ep, h) =>
    if ep.timeStamp_ < s.currentTime_ then .error .missedEvent
    else .ok (ep, { s with heap_ := h, currentTime_ := ep.timeStamp_ })

variable [DecidableEq τ] [Fintype τ]

/-- The scheduler after a change of its timers. -/
def Scheduler.onTimers (s : Scheduler τ) (f : Timers τ → Except Halt (Timers τ)) :
    Except Halt (Scheduler τ) :=
  match f s.toTimers with
  | .ok s' => .ok { s with toTimers := s' }
  | .error e => .error e

/-- The scheduler after one call by the code outside. -/
def Scheduler.call (K : Ticks) (s : Scheduler τ) : EngineCall τ → Except Halt (Scheduler τ)
  | .insertEvent ep => Prod.fst <$> s.setEvent ep
  | .start t time pero => s.onTimers fun ts => ts.start t time pero
  | .cancel t => s.onTimers fun ts => ts.cancel t
  | .chkt0e tes => s.readt0e K tes

/-- The scheduler after a list of calls. -/
def Scheduler.calls (K : Ticks) (s : Scheduler τ) (cs : List (EngineCall τ)) :
    Except Halt (Scheduler τ) :=
  Run.exec (Scheduler.call K) s cs

/-- The end of `deqheap` and `deqtimer`: what an event does goes by its flag. -/
def Scheduler.dispatch (K : Ticks) (s : Scheduler τ) (flag : Flag) (r : Round τ) :
    Except Halt (Scheduler τ) :=
  match flag with
  | .KTIMEOUT => s.readt0e K r.callouts
  | .CHKTUN => s.chktunnel r.tunnel
  | .CMD_SERVER | .DEFAULT => s.calls K r.handler

/-- `scheduler::deqtimer` up to the call of the handler. -/
def Scheduler.deqtimer (s : Scheduler τ) : Except Halt (τ × Scheduler τ) :=
  match s.toTimers.deqtimer with
  | .ok (t, s') => .ok (t, { s with toTimers := s' })
  | .error e => .error e

/-- A round up to the choice of its branch. -/
def Scheduler.beforePick (K : Ticks) (s : Scheduler τ) (r : Round τ) : Except Halt (Scheduler τ) := do
  let s ← s.readt0e K r.t0e
  s.calls K r.gui

/-- A round from the choice of its branch on. -/
def Scheduler.afterPick (K : Ticks) (s : Scheduler τ) (r : Round τ) : Except Halt (Scheduler τ) :=
  match s.pick with
  | .heap => do
    let (ep, s) ← s.deqheap
    let s ← s.dispatch K ep.flag r
    s.calls K r.serve
  | .timer => do
    let (t, s) ← s.deqtimer
    let s ← s.dispatch K (s.obj t).callout_event.flag r
    s.calls K r.serve
  | .idle => .ok { s with currentTime_ := (s.simulateTime_ + 1) % 2 ^ 64 }

/-- One round of the loop of `scheduler::executeEvent`. -/
def Scheduler.round (K : Ticks) (s : Scheduler τ) (r : Round τ) : Except Halt (Scheduler τ) := do
  let s ← s.beforePick K r
  s.afterPick K r

/-- The loop of `scheduler::executeEvent`: it goes on while the simulation is not over. -/
def Scheduler.loop (K : Ticks) (s : Scheduler τ) (r : Round τ) : Except Halt (Scheduler τ) := do
  let s ← s.round K r
  if s.currentTime_ ≤ s.simulateTime_ then return s else throw .finished

/-! ## What the scheduler is for -/

omit [DecidableEq τ] [Fintype τ] in
/-- The timestamps of the events in the heap and of the timers in the list. -/
def Scheduler.pending (s : Scheduler τ) : Set Nat :=
  {time | (∃ e ∈ s.heap_.events, e.timeStamp_ = time) ∨
    ∃ l, PtrChain.IsChain s.next_ep s.timerHead_ l ∧ ∃ t ∈ l, s.ts t = time}

/-- What is executed next has the smallest pending timestamp, is not missed, and moves the clock to
    its timestamp. -/
def RunsSmallest (s : Scheduler τ) : Prop :=
  match s.pick with
  | .heap => ∃ ep s', s.deqheap = .ok (ep, s') ∧ s.currentTime_ ≤ ep.timeStamp_ ∧
      s'.currentTime_ = ep.timeStamp_ ∧ ep.timeStamp_ ∈ s.pending ∧ ∀ p ∈ s.pending, ep.timeStamp_ ≤ p
  | .timer => ∃ t s', s.deqtimer = .ok (t, s') ∧ s.currentTime_ ≤ s.ts t ∧
      s'.currentTime_ = s.ts t ∧ s.ts t ∈ s.pending ∧ ∀ p ∈ s.pending, s.ts t ≤ p
  | .idle => s.pending = ∅

/-- A round that runs what is due first, misses no event and never turns the clock back. The clock
    afterwards is the time of what the round has run. -/
def SafeRound (K : Ticks) (s : Scheduler τ) (r : Round τ) : Prop :=
  (∀ s₁, s.beforePick K r = .ok s₁ → RunsSmallest s₁) ∧
  (∀ s₁ s', s.beforePick K r = .ok s₁ → s.round K r = .ok s' → s₁.pending.Nonempty →
    s'.currentTime_ ∈ s₁.pending ∧ ∀ p ∈ s₁.pending, s'.currentTime_ ≤ p) ∧
  (∀ s', s.round K r = .ok s' → s.currentTime_ ≤ s'.currentTime_) ∧
  s.round K r ≠ .error .missedEvent ∧ s.round K r ≠ .error .missedTimer

end Engine
