import Mathlib.Algebra.Order.Ring.Int
import Nctuns.Lib.Run

/-!
# An interior node of a DiffServ domain

`ds_i.cc` and `dsqueue.cc`: seven queues, of which some may be missing. `send` queues a packet while the
module below is full; the module below calls `intrq` when it has room for one. Numbers that `random`
gives are inputs, and what is computed in floating point is a parameter.
-/

namespace Ds

/-- How a call fails. -/
inductive Halt where
  | exit
  | nullDeref
  | division
  deriving DecidableEq, Repr

/-- What the module reads of a packet, and the time that it notes down in it under `DS_AT`. -/
structure Packet where
  ep : Nat
  ether_type : UInt16
  ip_tos : UInt8
  ip_len : UInt16
  DS_AT : UInt64
  deriving DecidableEq, Repr

/-- The comparisons of the source in floating point, which are parameters. -/
structure DsParams where
  /-- Whether a time is after another one, both as seconds in a `double`. -/
  later : UInt64 → UInt64 → Bool
  /-- `temp < dropR * 10000` for a packet of high drop precedence, from `_length`, `_ts1`,
      `_maxLength` and `temp`. -/
  drop_high : UInt32 → UInt32 → UInt32 → Nat → Bool
  /-- The same for one of low drop precedence, from `_length`, `_ts2`, `_maxLength`, `_maxDR` and
      `temp`. -/
  drop_low : UInt32 → UInt32 → UInt32 → UInt32 → Nat → Bool

/-! ### Queues -/

/-- What an `AFQueue` has in addition; nothing reads it in another queue. -/
structure AFThresholds where
  _ts1 : UInt32
  _ts2 : UInt32
  _maxDR : UInt32
  deriving DecidableEq, Repr

/-- A `DSQueue` with its packets from `_head` on. -/
structure DSQueue where
  _maxLength : UInt32
  _rate : Int
  _account : UInt32
  packets : List Packet
  af : AFThresholds
  fits : packets.length ≤ _maxLength.toNat
  deriving DecidableEq

namespace DSQueue

variable (q : DSQueue)

/-- What one turn adds to an account. -/
abbrev _accountUnit : UInt32 := 1500

/-- The packets in the queue. -/
def _length : UInt32 := .ofNat q.packets.length

theorem _length_toNat : q._length.toNat = q.packets.length :=
  UInt32.toNat_ofNat_of_lt' (Nat.lt_of_le_of_lt q.fits q._maxLength.toNat_lt)

/-- The queue has its greatest length. -/
abbrev isFull : Prop := q._length = q._maxLength

/-- The queue has no packets. -/
abbrev isEmpty : Prop := q._length = 0

/-- The first packet. -/
def getNext : Option Packet := q.packets.head?

/-- `DSQueue::enqueue`; `none` is -1. -/
def enqueue (pkt : Packet) : Option DSQueue :=
  if h : q.isFull then none
  else some { q with
    packets := q.packets ++ [pkt]
    fits := by
      have hlen := q._length_toNat
      have hne : q._length.toNat ≠ q._maxLength.toNat := fun h' => h (UInt32.toNat_inj.1 h')
      have hfits := q.fits
      rw [List.length_append, List.length_singleton]
      omega }

/-- `AFQueue::enqueue`. -/
def enqueueAF (params : DsParams) (random : Nat) (pkt : Packet) (type : Nat) : Option DSQueue :=
  let temp := random % 10000
  if q.isFull then none
  else if q._length < q.af._ts1 then q.enqueue pkt
  else if q._length < q.af._ts2 ∧ type = 0 then q.enqueue pkt
  else if type > 0 then
    if params.drop_high q._length q.af._ts1 q._maxLength temp then none else q.enqueue pkt
  else if params.drop_low q._length q.af._ts2 q._maxLength q.af._maxDR temp then none
  else q.enqueue pkt

/-- The queue behind its first packet, with an account. -/
def behindHead (_account : UInt32) : DSQueue :=
  { q with
    _account := _account
    packets := q.packets.tail
    fits := by
      have hfits := q.fits
      rw [List.length_tail]
      omega }

/-- The queue gets an account. -/
def withAccount (_account : UInt32) : DSQueue := { q with _account := _account }

/-- The first packet leaves if the account covers it. -/
def dequeue : Option Packet × DSQueue :=
  match q.getNext with
  | none => (none, q.withAccount 0)
  | some pkt =>
    -- a packet that is not an IP packet costs nothing
    if pkt.ether_type ≠ 0x0800 then (some pkt, q.behindHead q._account)
    else if pkt.ip_len.toUInt32 > q._account then (none, q)
    else (some pkt, q.behindHead (q._account - pkt.ip_len.toUInt32))

/-- The account grows by a unit, up to a bound. -/
def addAccount : DSQueue :=
  if q._account < _accountUnit * 10 then q.withAccount (q._account + _accountUnit) else q

end DSQueue

/-! ### The module -/

/-- The queues of the module. -/
inductive QueueName where
  | af1
  | af2
  | af3
  | af4
  | be
  | nc
  | ef
  deriving DecidableEq, Repr

/-- The first six places of `qArray`. -/
def qArray : List QueueName := [.af1, .af2, .af3, .af4, .be, .nc]

/-- All queues, in the order in which they are listed. -/
def allQueues : List QueueName := qArray ++ [.ef]

/-- The module: its queues, the one in turn and the rates. -/
structure DsI where
  queue : QueueName → Option DSQueue
  cntQue : Option QueueName
  qRate : Fin 6 → Int

/-- The behaviours that a code point asks for. -/
inductive Phb where
  | BE
  | NC
  | EF
  | AF (q : QueueName) (type : Nat)
  deriving DecidableEq, Repr

/-- The behaviour that a code point asks for. -/
def DSCPTophb (codepoint : UInt8) : Phb :=
  match codepoint.toNat with
  | 184 => .EF
  | 40 => .AF .af1 0
  | 48 => .AF .af1 1
  | 56 => .AF .af1 2
  | 72 => .AF .af2 0
  | 80 => .AF .af2 1
  | 88 => .AF .af2 2
  | 104 => .AF .af3 0
  | 112 => .AF .af3 1
  | 120 => .AF .af3 2
  | 136 => .AF .af4 0
  | 144 => .AF .af4 1
  | 152 => .AF .af4 2
  | 224 => .NC
  | 192 => .NC
  | 160 => .NC
  | 128 => .NC
  | _ => .BE

/-- What becomes of a packet in `send`. -/
inductive Fate where
  | queued
  | freed
  | passedOn
  deriving DecidableEq, Repr

namespace DsI

variable (d : DsI) (params : DsParams)

/-- The rate of a queue, zero if there is none. -/
def rateOf (queue : QueueName → Option DSQueue) (name : QueueName) : Int :=
  match queue name with
  | none => 0
  | some q => q._rate

/-- `ds_i::init`, with the queues that the configuration file asks for. -/
def init (queue : QueueName → Option DSQueue) : DsI where
  queue name := (queue name).map fun q => { q with _account := 0, packets := [], fits := Nat.zero_le _ }
  cntQue := none
  qRate i := ((qArray.take (i + 1)).map (rateOf queue)).sum

/-- One queue is replaced. -/
def setQueue (name : QueueName) (q : DSQueue) : DsI :=
  { d with queue := Function.update d.queue name (some q) }

/-- Put a packet that was refused away, or keep the queue that took it. -/
def keep (name : QueueName) (q : Option DSQueue) : Fate × DsI :=
  match q with
  | none => (.freed, d)
  | some q => (.queued, d.setQueue name q)

/-- `ds_i::send` at a time, with `qfull` for the module below and a number that `random` gives. -/
def send (qfull : Bool) (now : UInt64) (random : Nat) (pkt : Packet) : Except Halt (Fate × DsI) :=
  let pkt := { pkt with DS_AT := now }
  if pkt.ether_type ≠ 0x0800 then
    if qfull then
      match d.queue .nc with
      | none => .error .nullDeref
      | some q => .ok (d.keep .nc (q.enqueue pkt))
    else .ok (.passedOn, d)
  else if qfull then
    let plain (name : QueueName) : Except Halt (Fate × DsI) :=
      match d.queue name with
      | none => .error .exit
      | some q => .ok (d.keep name (q.enqueue pkt))
    match DSCPTophb pkt.ip_tos with
    | .BE => plain .be
    | .NC => plain .nc
    | .EF => plain .ef
    | .AF name type =>
      match d.queue name with
      | none => .error .exit
      | some q => .ok (d.keep name (q.enqueueAF params random pkt type))
  else .ok (.passedOn, d)

/-- Whether a pointer to a queue is null or the queue is empty. -/
def idle (q : Option QueueName) : Bool :=
  match q.bind d.queue with
  | none => true
  | some q => decide q.isEmpty

/-- The queue whose part of the rates a number lies in. -/
def pick (r : Int) : QueueName :=
  match (List.finRange 6).find? fun i => r < d.qRate i with
  | some i => qArray.getD i .ef
  | none => .ef

/-- The loop that selects a queue: the queue, and how many tries are left. -/
def select (random : Nat → Nat) : Nat → Option QueueName → Option QueueName × Nat
  | 0, q => (q, 0)
  | test_count + 1, q =>
    if d.idle q then
      select random test_count (some (d.pick (Int.tmod (random test_count) (d.qRate 5))))
    else (q, test_count + 1)

/-- The queue that is served next: after fifty tries in vain the first one that has packets. -/
def selectQueue (random : Nat → Nat) : Option QueueName :=
  let r := d.select random 50 none
  if r.2 = 0 then qArray.find? fun name => !d.idle (some name) else r.1

/-- The packet of `be` waits for one of `nc` that came before it. -/
def giveChance (q : QueueName) : Except Halt QueueName :=
  if q = .be then
    match d.queue .nc with
    | none => .error .nullDeref
    | some nc =>
      if nc.isEmpty then .ok q
      else
        match (d.queue .be).bind DSQueue.getNext, nc.getNext with
        | some pkt, some nc_pkt => .ok (if params.later pkt.DS_AT nc_pkt.DS_AT then .nc else q)
        | _, _ => .error .nullDeref
  else .ok q

/-- A packet taken out of a queue with 1500 bytes more on its account. -/
def serve (name : QueueName) : Except Halt (Option Packet × DsI) :=
  match d.queue name with
  | none => .error .nullDeref
  | some q => .ok (q.addAccount.dequeue.1, d.setQueue name q.addAccount.dequeue.2)

/-- The part of `intrq` that selects a queue. -/
def serveNext (random : Nat → Nat) : Except Halt (Option Packet × DsI) :=
  if d.qRate 5 = 0 then .error .division
  else if d.idle (d.selectQueue random) then .ok (none, d)
  else
    match d.selectQueue random with
    | none => .ok (none, d)
    | some q =>
      match d.giveChance params q with
      | .error e => .error e
      | .ok q => { d with cntQue := some q }.serve q

/-- `ds_i::intrq`: the packet that is handed to the module below. -/
def intrq (random : Nat → Nat) : Except Halt (Option Packet × DsI) :=
  if ¬ d.idle (some .ef) then d.serve .ef
  else
    match d.cntQue with
    | none => d.serveNext params random
    | some name =>
      match d.queue name with
      | none => .error .nullDeref
      | some q =>
        match q.dequeue with
        | (some pkt, q) => .ok (some pkt, d.setQueue name q)
        | (none, q) => { d.setQueue name q with cntQue := none }.serveNext params random

/-- The packets of a queue. -/
def packetsOf (name : QueueName) : List Packet := ((d.queue name).map DSQueue.packets).getD []

/-- The queued packets. -/
def backlog : List Packet := allQueues.flatMap d.packetsOf

end DsI

/-- A packet from above, or the module below asks for one. -/
inductive Input where
  | send (qfull : Bool) (now : UInt64) (random : Nat) (pkt : Packet)
  | intrq (random : Nat → Nat)

/-- The module after an input. -/
def DsI.step (params : DsParams) (d : DsI) : Input → Except Halt DsI
  | .send qfull now random pkt => (d.send params qfull now random pkt).map Prod.snd
  | .intrq random => (d.intrq params random).map Prod.snd

end Ds
