import Nctuns.Engine.Heap
import Nctuns.Lib.PtrChain

/-!
# Timers

`timer.h`, `timer.cc` and the timer half of `scheduler.cc`: the timers that run are a singly linked
list of their events, `timerHead_` first, linked by `next_ep`. Each `timerObj` owns one event, its
`callout_event`, and no other event ever enters the list, so a timer `t : τ` stands for its event
too. A walk along the list takes at most `Fintype.card τ` rounds unless the list has a cycle; a walk
with more rounds is reported as `Halt.diverges`.
-/

namespace Engine

/-- `timerObj`. -/
structure TimerObj where
  callout_event : Event
  busy_ : Bool
  paused_ : Bool
  rtime_ : Nat
  deriving DecidableEq, Repr

/-- `timerObj::timerObj()`. -/
def TimerObj.new (addr : Nat) : TimerObj where
  callout_event := createEvent addr
  busy_ := false
  paused_ := false
  rtime_ := 0

/-- The clock, the timer list and all timers. -/
structure Timers (τ : Type*) where
  currentTime_ : Nat
  timerHead_ : Option τ
  next_ep : τ → Option τ
  obj : τ → TimerObj

variable {τ : Type*}

/-- The timers at the start, all just constructed, and an empty list. -/
def Timers.new (currentTime_ : Nat) (addr : τ → Nat) : Timers τ where
  currentTime_ := currentTime_
  timerHead_ := none
  next_ep := fun _ => none
  obj := fun t => TimerObj.new (addr t)

/-- `callout_event->timeStamp_` of a timer. -/
def Timers.ts (s : Timers τ) (t : τ) : Nat := (s.obj t).callout_event.timeStamp_

variable [DecidableEq τ]

/-- Writes the members of a timer. -/
def Timers.setObj (s : Timers τ) (t : τ) (o : TimerObj) : Timers τ :=
  { s with obj := Function.update s.obj t o }

/-- Writes `next_ep` of a timer's event. -/
def Timers.link (s : Timers τ) (t : τ) (p : Option τ) : Timers τ :=
  { s with next_ep := Function.update s.next_ep t p }

/-! ## The list -/

/-- The loop of `schedule_timer`, with the event before `hptr` and `hptr` itself. -/
def Timers.scheduleWalk (s : Timers τ) (T : τ) : Nat → Option τ → Option τ → Except Halt (Timers τ)
  | 0, _, _ => .error .diverges
  | fuel + 1, tptr, hptr =>
    match hptr with
    | some hptr =>
      if s.ts T < s.ts hptr then
        match tptr with
        | none => .ok { s.link T s.timerHead_ with timerHead_ := some T }
        | some tptr => .ok ((s.link T (some hptr)).link tptr (some T))
      else if s.next_ep hptr = some T then .error .timerTwice
      else s.scheduleWalk T fuel (some hptr) (s.next_ep hptr)
    | none =>
      match tptr with
      | some tptr => .ok (s.link tptr (some T))
      | none => .error .nullDeref

variable [Fintype τ]

/-- `scheduler::schedule_timer`. -/
def Timers.schedule_timer (s : Timers τ) (T : τ) : Except Halt (Timers τ × Int) :=
  if s.ts T < s.currentTime_ then .ok (s, -1)
  else
    match s.timerHead_ with
    | none => .ok ({ s with timerHead_ := some T }, 1)
    | some hptr =>
      match s.scheduleWalk T (Fintype.card τ + 1) none (some hptr) with
      | .ok s' => .ok (s', 1)
      | .error e => .error e

omit [Fintype τ] in
/-- The loop of `cancel_timer`. -/
def Timers.cancelWalk (s : Timers τ) (T : τ) : Nat → τ → Except Halt (Timers τ)
  | 0, _ => .error .diverges
  | fuel + 1, dt =>
    match s.next_ep dt with
    | none => .ok s
    | some d =>
      if d = T then .ok ((s.link dt (s.next_ep T)).link T none)
      else s.cancelWalk T fuel d

/-- `scheduler::cancel_timer`. -/
def Timers.cancel_timer (s : Timers τ) (T : τ) : Except Halt (Timers τ × Int) :=
  match s.timerHead_ with
  | none => .ok (s, -1)
  | some h =>
    if T = h then .ok ({ s with timerHead_ := s.next_ep T }.link T none, 1)
    else
      match s.cancelWalk T (Fintype.card τ + 1) h with
      | .ok s' => .ok (s', 1)
      | .error e => .error e

omit [Fintype τ] in
/-- `scheduler::dequeue_timer`. -/
def Timers.dequeue_timer (s : Timers τ) : Option τ × Timers τ :=
  match s.timerHead_ with
  | none => (none, s)
  | some dt => (some dt, { s with timerHead_ := s.next_ep dt }.link dt none)

/-! ## `timerObj` -/

omit [Fintype τ] in
/-- `timerObj::init`. -/
def Timers.init (s : Timers τ) (t : τ) : Timers τ :=
  s.setObj t { s.obj t with busy_ := false, paused_ := false, rtime_ := 0 }

/-- `timerObj::cancel`. -/
def Timers.cancel (s : Timers τ) (t : τ) : Except Halt (Timers τ) :=
  Prod.fst <$> (s.init t).cancel_timer t

/-- The members that `start` sets. -/
def TimerObj.started (o : TimerObj) (expire pero : Nat) : TimerObj where
  callout_event := { o.callout_event with timeStamp_ := expire, perio_ := pero }
  busy_ := true
  paused_ := false
  rtime_ := 0

/-- `timerObj::start` once a busy timer has been cancelled. -/
def Timers.startIdle (s : Timers τ) (t : τ) (time pero : Nat) : Except Halt (Timers τ) :=
  let expire := (s.currentTime_ + time) % 2 ^ 64
  if expire < s.currentTime_ then .error .startWraps
  else Prod.fst <$> (s.setObj t ((s.obj t).started expire pero)).schedule_timer t

/-- `timerObj::start`. -/
def Timers.start (s : Timers τ) (t : τ) (time pero : Nat) : Except Halt (Timers τ) :=
  if (s.obj t).busy_ then
    match s.cancel_timer t with
    | .ok (s, _) => s.startIdle t time pero
    | .error e => .error e
  else s.startIdle t time pero

/-- `timerObj::pause`. -/
def Timers.pause (s : Timers τ) (t : τ) : Except Halt (Timers τ) :=
  Prod.fst <$> (s.setObj t { s.obj t with
    paused_ := true
    rtime_ := if s.currentTime_ > s.ts t then 0 else s.ts t - s.currentTime_ }).cancel_timer t

/-- `timerObj::resume(u_int64_t)`. -/
def Timers.resumeBy (s : Timers τ) (t : τ) (time : Nat) : Except Halt (Timers τ × Int) :=
  let o := s.obj t
  let timeStamp_ := (s.currentTime_ + time + o.rtime_) % 2 ^ 64
  (s.setObj t { o with
    paused_ := false
    callout_event := { o.callout_event with timeStamp_ := timeStamp_ }
    rtime_ := 0 }).schedule_timer t

/-- `timerObj::resume()`. -/
def Timers.resume (s : Timers τ) (t : τ) : Except Halt (Timers τ × Int) :=
  let o := s.obj t
  let timeStamp_ := (s.currentTime_ + o.rtime_) % 2 ^ 64
  (s.setObj t { o with
    paused_ := false
    callout_event := { o.callout_event with timeStamp_ := timeStamp_ } }).schedule_timer t

/-! ## Expiry -/

/-- The members of a timer whose periodic event is set up for the next period. -/
def TimerObj.nextPeriod (o : TimerObj) : TimerObj :=
  { o with callout_event := { o.callout_event with
    timeStamp_ := (o.callout_event.timeStamp_ + o.callout_event.perio_) % 2 ^ 64 } }

/-- `deqtimer` once the clock has moved, up to the call of the handler: a periodic timer is scheduled
    again, a one-shot timer is reset. An event with another `flag` than `DEFAULT` has no handler. -/
def Timers.rearm (s : Timers τ) (t : τ) : Except Halt (Timers τ) :=
  let ep := (s.obj t).callout_event
  if ep.flag ≠ .DEFAULT then .ok s
  else if ep.perio_ > 0 then Prod.fst <$> (s.setObj t (s.obj t).nextPeriod).schedule_timer t
  else .ok (s.init t)

/-- `scheduler::deqtimer` up to the call of the handler: the timer that expired and the new state. -/
def Timers.deqtimer (s : Timers τ) : Except Halt (τ × Timers τ) :=
  match s.dequeue_timer with
  | (none, _) => .error .nullDeref
  | (some t, s) =>
    if s.ts t < s.currentTime_ then .error .missedTimer
    else Prod.mk t <$> { s with currentTime_ := s.ts t }.rearm t

/-- What happens to the timers: a call on one of them, the expiry of the first one, or an event of
    the heap, which moves the clock to its timestamp. -/
inductive TimerCall (τ : Type*) where
  | start (t : τ) (time pero : Nat)
  | cancel (t : τ)
  | pause (t : τ)
  | resumeBy (t : τ) (time : Nat)
  | resume (t : τ)
  | deqtimer
  | deqheap (timeStamp_ : Nat)

/-- The timers after one call. -/
def Timers.call (s : Timers τ) : TimerCall τ → Except Halt (Timers τ)
  | .start t time pero => s.start t time pero
  | .cancel t => s.cancel t
  | .pause t => s.pause t
  | .resumeBy t time => Prod.fst <$> s.resumeBy t time
  | .resume t => Prod.fst <$> s.resume t
  | .deqtimer => Prod.snd <$> s.deqtimer
  | .deqheap timeStamp_ =>
    if timeStamp_ < s.currentTime_ then .error .missedEvent
    else .ok { s with currentTime_ := timeStamp_ }

/-! ## What the list is for -/

/-- The timers that run: started and not paused. -/
def Timers.running (s : Timers τ) : Set τ :=
  {t | (s.obj t).busy_ = true ∧ (s.obj t).paused_ = false}

/-- The list from `timerHead_` ends, has no duplicates, is sorted by timestamp and consists of the
    running timers. -/
def ListIntact (s : Timers τ) : Prop :=
  ∃ l, PtrChain.IsChain s.next_ep s.timerHead_ l ∧ l.Nodup ∧
    (l.Pairwise fun x y => s.ts x ≤ s.ts y) ∧ ∀ t, t ∈ l ↔ t ∈ s.running

/-- Only paused timers are resumed. -/
def ResumesPaused (s : Timers τ) : TimerCall τ → Prop
  | .resumeBy t _ | .resume t => (s.obj t).paused_ = true
  | _ => True

/-- A resumed timer is busy exactly if its new timestamp does not wrap into the past, and the next
    timestamp of a periodic timer does not wrap into the past. -/
def ReturnsToList (s : Timers τ) : TimerCall τ → Prop
  | .resumeBy t time => (s.obj t).busy_ = true ↔
      s.currentTime_ ≤ (s.currentTime_ + time + (s.obj t).rtime_) % 2 ^ 64
  | .resume t => (s.obj t).busy_ = true ↔
      s.currentTime_ ≤ (s.currentTime_ + (s.obj t).rtime_) % 2 ^ 64
  | .deqtimer => ∀ t, s.timerHead_ = some t → 0 < (s.obj t).callout_event.perio_ →
      s.currentTime_ ≤ s.ts t → s.ts t ≤ (s.ts t + (s.obj t).callout_event.perio_) % 2 ^ 64
  | _ => True

instance (s : Timers τ) : (c : TimerCall τ) → Decidable (ResumesPaused s c)
  | .resumeBy .. | .resume .. => inferInstanceAs (Decidable (_ = _))
  | .start .. | .cancel .. | .pause .. | .deqtimer | .deqheap .. => .isTrue trivial

instance (s : Timers τ) : (c : TimerCall τ) → Decidable (ReturnsToList s c)
  | .resumeBy .. | .resume .. => inferInstanceAs (Decidable (_ ↔ _))
  | .deqtimer =>
    match h : s.timerHead_ with
    | none => .isTrue (by simp [ReturnsToList, h])
    | some t => decidable_of_iff (0 < (s.obj t).callout_event.perio_ → s.currentTime_ ≤ s.ts t →
        s.ts t ≤ (s.ts t + (s.obj t).callout_event.perio_) % 2 ^ 64) (by simp [ReturnsToList, h])
  | .start .. | .cancel .. | .pause .. | .deqheap .. => .isTrue trivial

end Engine
