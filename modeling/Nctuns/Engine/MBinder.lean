import Nctuns.Engine.Timer
import Nctuns.Lib.PriorityQueue

/-!
# Module binders

`mbinder.h`, `mbinder.cc`: the queue of packets between two modules, a singly linked list with a
pointer to its last packet and a length. A packet `p : τ` is its address. A walk along the list takes
at most `mbq_len` rounds unless the list is longer than that; a walk with more rounds is reported as
`Halt.diverges`.
-/

namespace Engine

/-- `mbqueue`, with the links and priorities of the packets. -/
structure MBQueue (τ : Type*) where
  mbq_head : Option τ
  mbq_tail : Option τ
  mbq_len : Int
  mbq_maxlen : Int
  mbq_drops : Int
  next_ep : τ → Option τ
  priority_ : τ → Nat

variable {τ : Type*}

/-- `MBinder::MBinder(NslObject *, int)`. -/
def MBQueue.new (qlen : Int) (priority_ : τ → Nat) : MBQueue τ where
  mbq_head := none
  mbq_tail := none
  mbq_len := 0
  mbq_maxlen := qlen
  mbq_drops := 0
  next_ep := fun _ => none
  priority_ := priority_

/-- `GET_MLEVEL` of a priority. -/
def mlevel (priority_ : Nat) : Nat := priority_ &&& 0xc0

/-- `GET_MLEVEL`. -/
def MBQueue.level (s : MBQueue τ) (p : τ) : Nat := mlevel (s.priority_ p)

variable [DecidableEq τ]

/-- Writes `next_ep` of a packet. -/
def MBQueue.link (s : MBQueue τ) (p : τ) (q : Option τ) : MBQueue τ :=
  { s with next_ep := Function.update s.next_ep p q }

/-- Writes `priority_` of a packet. -/
def MBQueue.setPriority (s : MBQueue τ) (p : τ) (priority_ : Nat) : MBQueue τ :=
  { s with priority_ := Function.update s.priority_ p priority_ }

/-- `MB_PREPEND`. -/
def MBQueue.prepend (s : MBQueue τ) (m : τ) : MBQueue τ :=
  { s.link m s.mbq_head with
    mbq_tail := if s.mbq_tail = none then some m else s.mbq_tail
    mbq_head := some m
    mbq_len := s.mbq_len + 1 }

/-- `MB_DEQUEUE`. -/
def MBQueue.dequeue (s : MBQueue τ) : Option τ × MBQueue τ :=
  match s.mbq_head with
  | none => (none, s)
  | some m =>
    (some m, { s with
      mbq_head := s.next_ep m
      mbq_tail := if s.next_ep m = none then none else s.mbq_tail
      mbq_len := s.mbq_len - 1 }.link m none)

/-! ## `enqueue` -/

omit [DecidableEq τ] in
/-- The loop that looks for the packet to swap out: `p` is the one found so far, `p1` the packet
    before it. -/
def MBQueue.victimWalk (s : MBQueue τ) :
    Nat → Option τ → Option τ → Option τ → τ → Except Halt (Option τ × τ)
  | _, _, none, p1, p => .ok (p1, p)
  | 0, _, some _, _, _ => .error .diverges
  | fuel + 1, ptr1, some ptr, p1, p =>
    if s.level ptr ≤ s.level p then s.victimWalk fuel (some ptr) (s.next_ep ptr) ptr1 ptr
    else s.victimWalk fuel (some ptr) (s.next_ep ptr) p1 p

/-- Swaps out the packet `p` behind `p1`. -/
def MBQueue.swapOut (s : MBQueue τ) (p1 : Option τ) (p : τ) : MBQueue τ :=
  match p1 with
  | some p1 => { (s.link p1 (s.next_ep p)).link p none with mbq_len := s.mbq_len - 1 }
  | none =>
    let head := s.mbq_head.bind s.next_ep
    { s with
      mbq_head := head
      mbq_tail := if s.mbq_head = s.mbq_tail then head else s.mbq_tail
      mbq_len := s.mbq_len - 1 }

omit [DecidableEq τ] in
/-- The loop that looks for the place of `pkt`: the last packet passed and the one behind it. -/
def MBQueue.placeWalk (s : MBQueue τ) (pkt : τ) :
    Nat → Option τ → Option τ → Except Halt (Option τ × Option τ)
  | _, ptr1, none => .ok (ptr1, none)
  | 0, _, some _ => .error .diverges
  | fuel + 1, ptr1, some ptr =>
    if s.level pkt > s.level ptr then .ok (ptr1, some ptr)
    else s.placeWalk pkt fuel (some ptr) (s.next_ep ptr)

/-- Puts `pkt` between `ptr1` and `ptr`. -/
def MBQueue.insertAt (s : MBQueue τ) (pkt : τ) (ptr1 ptr : Option τ) : MBQueue τ :=
  let s :=
    match ptr1 with
    | some ptr1 => (s.link pkt (s.next_ep ptr1)).link ptr1 (some pkt)
    | none => { s.link pkt s.mbq_head with mbq_head := some pkt }
  { s with mbq_tail := if ptr = none then some pkt else s.mbq_tail }

/-- The second half of `enqueue`: `pkt` joins a queue that has room. -/
def MBQueue.insert (s : MBQueue τ) (pkt : τ) : Except Halt (MBQueue τ) :=
  match s.mbq_tail with
  | none => .ok { s with mbq_head := some pkt, mbq_tail := some pkt, mbq_len := s.mbq_len + 1 }
  | some _ =>
    match s.placeWalk pkt s.mbq_len.toNat none s.mbq_head with
    | .ok (ptr1, ptr) => .ok { s.insertAt pkt ptr1 ptr with mbq_len := s.mbq_len + 1 }
    | .error e => .error e

/-- `enqueue` at a full queue: `pkt` or a packet of a lower level is handed back. -/
def MBQueue.enqueueFull (s : MBQueue τ) (pkt : τ) : Except Halt (Option τ × MBQueue τ) :=
  match s.mbq_head with
  | none => .error .nullDeref
  | some head =>
    match s.victimWalk s.mbq_len.toNat none (some head) none head with
    | .ok (p1, p) =>
      if s.level pkt ≤ s.level p then .ok (some pkt, s)
      else Prod.mk (some p) <$> (s.swapOut p1 p).insert pkt
    | .error e => .error e

/-- `MBinder::enqueue`: the packet handed back, if any. -/
def MBQueue.enqueue (s : MBQueue τ) (pkt : τ) : Except Halt (Option τ × MBQueue τ) :=
  if s.mbq_len ≥ s.mbq_maxlen then
    { s.link pkt none with mbq_drops := s.mbq_drops + 1 }.enqueueFull pkt
  else Prod.mk none <$> (s.link pkt none).insert pkt

/-- `MBinder::serve` with a next module that takes the packet or is busy: the packet passed to its
    `get`, and the return value. -/
def MBQueue.serve (s : MBQueue τ) (taken : Bool) : (Option τ × Int) × MBQueue τ :=
  match s.dequeue with
  | (some pkt, s) => if taken then ((some pkt, 1), s) else ((some pkt, -1), s.prepend pkt)
  | (none, s) => ((none, -1), s)

/-! ## Calls -/

/-- A call on the binder: a packet with its priority from the module before it, or the poller. -/
inductive BinderCall (τ : Type*) where
  | enqueue (pkt : τ) (priority_ : Nat)
  | serve (taken : Bool)
  deriving DecidableEq, Repr

/-- What a call returns; `serve` also passes a packet to the next module. -/
inductive BinderReply (τ : Type*) where
  | enqueue (dq_pkt : Option τ)
  | serve (pkt : Option τ) (ret : Int)
  deriving DecidableEq, Repr

/-- The binder after one call, behind the replies to the calls so far. -/
def MBQueue.call (s : MBQueue τ × List (BinderReply τ)) :
    BinderCall τ → Except Halt (MBQueue τ × List (BinderReply τ))
  | .enqueue pkt priority_ =>
    match (s.1.setPriority pkt priority_).enqueue pkt with
    | .ok (dq_pkt, q) => .ok (q, s.2 ++ [.enqueue dq_pkt])
    | .error e => .error e
  | .serve taken =>
    let (r, q) := s.1.serve taken
    .ok (q, s.2 ++ [.serve r.1 r.2])

omit [DecidableEq τ] in
/-- The packets of the queue, as many as `mbq_len` says. -/
def MBQueue.packets (s : MBQueue τ) : List τ :=
  PtrChain.walk s.next_ep s.mbq_len.toNat s.mbq_head

omit [DecidableEq τ] in
/-- A packet is not passed to `enqueue` while it is in the queue. -/
def Owned (s : MBQueue τ × List (BinderReply τ)) : BinderCall τ → Prop
  | .enqueue pkt _ => pkt ∉ s.1.packets
  | .serve _ => True

instance (s : MBQueue τ × List (BinderReply τ)) : (c : BinderCall τ) → Decidable (Owned s c)
  | .enqueue .. => inferInstanceAs (Decidable (_ ∉ _))
  | .serve _ => .isTrue trivial

/-! ## What the binder is for -/

/-- A bounded stable priority queue of packets and their levels under the same calls. -/
def BinderSpec.call (maxlen : Nat) (q : List (τ × Nat) × List (BinderReply τ)) :
    BinderCall τ → List (τ × Nat) × List (BinderReply τ)
  | .enqueue pkt priority_ =>
    let (back, q') := PriorityQueue.put Prod.snd maxlen q.1 (pkt, mlevel priority_)
    (q', q.2 ++ [.enqueue (back.map Prod.fst)])
  | .serve taken =>
    match PriorityQueue.take Prod.snd q.1 with
    | (some t, q') =>
      if taken then (q', q.2 ++ [.serve (some t.1) 1]) else (q.1, q.2 ++ [.serve (some t.1) (-1)])
    | (none, _) => (q.1, q.2 ++ [.serve none (-1)])

omit [DecidableEq τ] in
/-- `mbq_len` is the number of packets linked from `mbq_head`, at most `mbq_maxlen`. -/
def LenExact (s : MBQueue τ × List (BinderReply τ)) : Prop :=
  (∃ l, PtrChain.IsChain s.1.next_ep s.1.mbq_head l ∧ s.1.mbq_len = l.length) ∧
    s.1.mbq_len ≤ s.1.mbq_maxlen

omit [DecidableEq τ] in
/-- `mbq_tail` is the last packet reachable from `mbq_head`, or null when there is none. -/
def TailExact (s : MBQueue τ × List (BinderReply τ)) : Prop :=
  ∃ l, PtrChain.IsList s.1.next_ep s.1.mbq_head s.1.mbq_tail l

/-- A packet that displaces the last one of a full queue does not overtake another one. -/
def NoOvertaking (s : MBQueue τ × List (BinderReply τ)) : BinderCall τ → Prop
  | .enqueue _ priority_ =>
    s.1.mbq_len ≥ s.1.mbq_maxlen → (∃ p ∈ s.1.packets.getLast?, s.1.level p < mlevel priority_) →
      ∀ p ∈ s.1.packets.dropLast, mlevel priority_ ≤ s.1.level p
  | .serve _ => True

instance (s : MBQueue τ × List (BinderReply τ)) : (c : BinderCall τ) → Decidable (NoOvertaking s c)
  | .enqueue .. => inferInstanceAs (Decidable (_ → (∃ _ ∈ _, _) → ∀ _ ∈ _, _))
  | .serve _ => .isTrue trivial

end Engine
