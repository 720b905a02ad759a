import Mathlib.Logic.Function.Basic
import Nctuns.Lib.Run
import Nctuns.Lib.TreeHeap

/-!
# The event heap

`event.h`, `heap.h` and `heap.cc`: the engine keeps its events in a binary heap in an array, ordered
by timestamp, events of one timestamp by priority. The loops of `heap.cc` take a bound on their
number of rounds; `siftUp` and `siftDown` are given enough of it by their callers.
-/

namespace Engine

/-- The values of `flag` (`event.h`). -/
inductive Flag where
  | DEFAULT
  | KTIMEOUT
  | CHKTUN
  | CMD_SERVER
  deriving DecidableEq, Repr

/-- `struct event`: what the engine itself reads of an event. `addr` stands for its address. -/
structure Event where
  addr : Nat
  flag : Flag
  timeStamp_ : Nat
  perio_ : Nat
  priority_ : Nat
  deriving DecidableEq, Repr

/-- `CREATE_EVENT`. -/
def createEvent (addr : Nat) : Event where
  addr := addr
  flag := .DEFAULT
  timeStamp_ := 0
  perio_ := 0
  priority_ := 0

/-- An event as a module prepares it for the heap. -/
def newEvent (addr timeStamp_ priority_ : Nat) : Event :=
  { createEvent addr with timeStamp_ := timeStamp_, priority_ := priority_ }

instance : Inhabited Event := ⟨createEvent 0⟩

/-- The exits and failed assertions of the engine. `diverges` is a loop that does not end. -/
inductive Halt where
  | heapFull
  | insertPast
  | missedEvent
  | missedTimer
  | nullDeref
  | startWraps
  | timerTwice
  | kernelPast
  | kernelInsert
  | finished
  | diverges
  deriving DecidableEq, Repr

/-- `HeapObject`. Position `0` of the array is not used; unwritten positions are never read. -/
structure HeapObject where
  maxEvent_ : Nat
  numEvent_ : Nat
  numInsertEvent_ : Nat
  numDequeueEvent_ : Nat
  eventHeap_ : Nat → Event

/-- `HeapObject::HeapObject(int)`. -/
def HeapObject.new (max_heap : Nat) : HeapObject where
  maxEvent_ := max_heap
  numEvent_ := 0
  numInsertEvent_ := 0
  numDequeueEvent_ := 0
  eventHeap_ := fun _ => default

/-- The loop of `insertEvent`: the array and the position at which the loop ends. -/
def siftUp (ep : Event) : Nat → (Nat → Event) → Nat → (Nat → Event) × Nat
  | 0, a, i => (a, i)
  | fuel + 1, a, i =>
    if i = 1 then (a, i)
    else if ep.timeStamp_ > (a (i / 2)).timeStamp_ then (a, i)
    else if ep.timeStamp_ = (a (i / 2)).timeStamp_ ∧ ep.priority_ ≤ (a (i / 2)).priority_ then (a, i)
    else if ep.timeStamp_ = (a (i / 2)).timeStamp_ ∧ ep.priority_ > (a (i / 2)).priority_ then
      siftUp ep fuel (Function.update a i (a (i / 2))) (i / 2)
    else siftUp ep fuel (Function.update a i (a (i / 2))) (i / 2)

/-- `HeapObject::insertEvent` at the time `now`, with `scheduler_->maxsimtime()`. -/
def HeapObject.insertEvent (h : HeapObject) (now maxsimtime : Nat) :
    Option Event → Except Halt (HeapObject × Int)
  | none => .ok (h, -1)
  | some ep =>
    if h.maxEvent_ ≤ h.numEvent_ + 1 then .error .heapFull
    else if ep.timeStamp_ < now then .error .insertPast
    else if maxsimtime > 0 ∧ ep.timeStamp_ > maxsimtime then .ok (h, 0)
    else
      let n := h.numEvent_ + 1
      let (a, i) := siftUp ep n h.eventHeap_ n
      .ok ({ h with
        numEvent_ := n
        numInsertEvent_ := (h.numInsertEvent_ + 1) % 2 ^ 64
        eventHeap_ := Function.update a i ep }, 1)

/-- The child that `dequeueEvent` compares with: `j` is the left child. -/
def pickChild (a : Nat → Event) (n j : Nat) : Nat :=
  if j < n then
    if (a j).timeStamp_ ≥ (a (j + 1)).timeStamp_ then j + 1
    else if (a j).timeStamp_ = (a (j + 1)).timeStamp_ ∧ (a j).priority_ < (a (j + 1)).priority_ then
      j + 1
    else j
  else j

/-- The loop of `dequeueEvent`: the array and the position at which the loop ends. -/
def siftDown (epLast : Event) (n : Nat) : Nat → (Nat → Event) → Nat → (Nat → Event) × Nat
  | 0, a, i => (a, i)
  | fuel + 1, a, i =>
    if 2 * i ≤ n then
      let j := pickChild a n (2 * i)
      if epLast.timeStamp_ < (a j).timeStamp_ then (a, i)
      else if epLast.timeStamp_ = (a j).timeStamp_ ∧ epLast.priority_ > (a j).priority_ then (a, i)
      else siftDown epLast n fuel (Function.update a i (a j)) j
    else (a, i)

/-- `HeapObject::dequeueEvent`. The current time it is given is not used. -/
def HeapObject.dequeueEvent (h : HeapObject) : Option Event × HeapObject :=
  if h.numEvent_ = 0 then (none, h)
  else
    let ep := h.eventHeap_ 1
    let epLast := h.eventHeap_ h.numEvent_
    let n := h.numEvent_ - 1
    let (a, i) := siftDown epLast n n h.eventHeap_ 1
    (some ep, { h with
      numEvent_ := n
      numDequeueEvent_ := (h.numDequeueEvent_ + 1) % 2 ^ 64
      eventHeap_ := Function.update a i epLast })

/-- A call on the heap. -/
inductive HeapCall where
  | insertEvent (now maxsimtime : Nat) (ep : Option Event)
  | dequeueEvent

/-- The heap after one call. -/
def HeapObject.call (h : HeapObject) : HeapCall → Except Halt HeapObject
  | .insertEvent now maxsimtime ep =>
    match h.insertEvent now maxsimtime ep with
    | .ok (h', _) => .ok h'
    | .error e => .error e
  | .dequeueEvent => .ok h.dequeueEvent.2

/-! ## What the heap is for -/

/-- The events in the heap. -/
def HeapObject.events (h : HeapObject) : Multiset Event :=
  TreeHeap.contents h.eventHeap_ h.numEvent_

/-- A heap, the events that were given to `insertEvent` and are not due after the end of the simulation,
    and the events that `dequeueEvent` returned. -/
structure HeapLedger where
  heap : HeapObject
  inserted : Multiset Event
  dequeued : Multiset Event

/-- An empty heap. -/
def HeapLedger.new (max_heap : Nat) : HeapLedger where
  heap := .new max_heap
  inserted := 0
  dequeued := 0

/-- What a call enters in the books. -/
def HeapLedger.enter (l : HeapLedger) : HeapCall → HeapLedger
  | .insertEvent _ _ none => l
  | .insertEvent _ maxsimtime (some ep) =>
    if maxsimtime > 0 ∧ ep.timeStamp_ > maxsimtime then l else { l with inserted := ep ::ₘ l.inserted }
  | .dequeueEvent =>
    match l.heap.dequeueEvent.1 with
    | none => l
    | some ep => { l with dequeued := ep ::ₘ l.dequeued }

/-- A call of the heap, with the events that enter or leave it. -/
def HeapLedger.call (l : HeapLedger) (c : HeapCall) : Except Halt HeapLedger :=
  match l.heap.call c with
  | .ok h => .ok { l.enter c with heap := h }
  | .error e => .error e

/-- The array is a min-heap by timestamp, it holds what was inserted and not dequeued, and an event that
    `dequeueEvent` returns next is one of the earliest in it. -/
structure HeapLedger.Sound (l : HeapLedger) : Prop where
  ordered : ∀ i, 2 ≤ i → i ≤ l.heap.numEvent_ →
    (l.heap.eventHeap_ (i / 2)).timeStamp_ ≤ (l.heap.eventHeap_ i).timeStamp_
  balanced : l.heap.events + l.dequeued = l.inserted
  empty : l.heap.dequeueEvent.1 = none ↔ l.heap.events = 0
  earliest : ∀ e, l.heap.dequeueEvent.1 = some e →
    e ∈ l.heap.events ∧ ∀ x ∈ l.heap.events, e.timeStamp_ ≤ x.timeStamp_

/-- `x` goes before `y`: it is due earlier, or at the same time with a larger priority. -/
def Before (x y : Event) : Prop :=
  x.timeStamp_ < y.timeStamp_ ∨ (x.timeStamp_ = y.timeStamp_ ∧ y.priority_ < x.priority_)

instance (x y : Event) : Decidable (Before x y) := inferInstanceAs (Decidable (_ ∨ _))

/-- If the call is a `dequeueEvent` that returns an event, then no event of the same time with a
    larger priority stays in the heap. -/
def TopPriority (h : HeapObject) : HeapCall → Prop
  | .insertEvent .. => True
  | .dequeueEvent => ∀ e, h.dequeueEvent.1 = some e →
      ∀ x ∈ h.dequeueEvent.2.events, x.timeStamp_ = e.timeStamp_ → x.priority_ ≤ e.priority_

/-- The positions with children on the way down from `i` that goes on to the child with the smaller
    timestamp, and to the right one when the timestamps are equal. -/
def smallPath (a : Nat → Event) (n : Nat) : Nat → Nat → List Nat
  | 0, _ => []
  | fuel + 1, i =>
    if n < 2 * i then []
    else if 2 * i < n ∧ (a (2 * i + 1)).timeStamp_ ≤ (a (2 * i)).timeStamp_ then
      i :: smallPath a n fuel (2 * i + 1)
    else i :: smallPath a n fuel (2 * i)

/-- The children of `i` are no pair of one timestamp whose left member has the larger priority and
    goes before `e`. -/
def Untied (a : Nat → Event) (n : Nat) (e : Event) (i : Nat) : Prop :=
  2 * i + 1 ≤ n → (a (2 * i)).timeStamp_ = (a (2 * i + 1)).timeStamp_ →
    (a (2 * i + 1)).priority_ < (a (2 * i)).priority_ → ¬ Before (a (2 * i)) e

/-- No sibling pair on the path of smallest timestamps hides a left member that has the larger
    priority and goes before the last event of the heap. -/
def TieSafe (h : HeapObject) : HeapCall → Prop
  | .insertEvent .. => True
  | .dequeueEvent => ∀ k ∈ smallPath h.eventHeap_ (h.numEvent_ - 1) (h.numEvent_ - 1) 1,
      Untied h.eventHeap_ (h.numEvent_ - 1) (h.eventHeap_ h.numEvent_) k

instance (a : Nat → Event) (n : Nat) (e : Event) (i : Nat) : Decidable (Untied a n e i) :=
  inferInstanceAs (Decidable (_ → _))

instance (h : HeapObject) : (c : HeapCall) → Decidable (TieSafe h c)
  | .insertEvent .. => .isTrue trivial
  | .dequeueEvent => inferInstanceAs (Decidable (∀ k ∈ smallPath _ _ _ _, _))

end Engine
