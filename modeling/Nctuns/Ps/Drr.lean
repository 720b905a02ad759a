import Nctuns.Lib.PtrChain
import Nctuns.Lib.Run

/-!
# Deficit round robin

`drr.cc`: queues of IP packets, one for each flow, in a singly linked list with a pointer to the last
one, a queue of spanning tree packets and one of the other packets. Queues lie in one memory; `malloc`
hands out addresses in order, and a queue that was freed is read as it was. Whether the module below
is full is an input of `send`; when it calls `intrq` it has room.
-/

namespace Ps

/-- How a call fails to return. -/
inductive Halt where
  | nullDeref
  | diverges
  deriving DecidableEq, Repr

/-- What the module reads of a packet. -/
structure Header where
  ether_type : UInt16
  ip_src : UInt32
  ip_dst : UInt32
  ip_p : UInt8
  /-- `th_sport` or `uh_sport`. -/
  sport : UInt16
  dport : UInt16
  ip_len : UInt16
  deriving DecidableEq, Repr

/-- An `ePacket_`, told apart from the others by `ep`. -/
structure Packet extends Header where
  ep : Nat
  deriving DecidableEq, Repr

/-- What `vBind` and `init` set. A care flag is off if its string is. -/
structure DrrConfig where
  DrrMaxBufSpaceForAllFlows : Int
  DrrMaxQueLenForEachFlow : Int
  CreditAddedPerRound : Int
  s_mask_long : UInt32
  d_mask_long : UInt32
  protocol_care : Bool
  s_portn_care : Bool
  d_portn_care : Bool
  /-- What `malloc` leaves in the ports of a new queue. -/
  uninit : Nat → Int × Int

/-- A queue, `packets` from `First` on; `Tail` is the last of them. -/
structure DrrTbl where
  s_ip : UInt32
  d_ip : UInt32
  s_portn : Int
  d_portn : Int
  Protocol : UInt8
  Counter : Int
  Priority : Int
  pkt_length : Int
  Timer : Int
  packets : List Packet
  deriving DecidableEq, Repr

/-- The list of all queues by its two ends, and their number. -/
structure DrrTblAll where
  Counter : Int
  First : Option Nat
  Tail : Option Nat
  deriving DecidableEq, Repr

/-- The module: its queues by address, the list that links them, the queue in turn and the two queues of
    their own. -/
structure Drr where
  tbl : Nat → DrrTbl
  Next : Nat → Option Nat
  allocated : Nat
  drrTableAll : DrrTblAll
  DrrPacketTotal : Int
  drrTableRR : Option Nat
  drrTableRR_var : Bool
  SpanningTbl : DrrTbl
  SpecialTbl : DrrTbl

/-- What becomes of a packet that is not queued. -/
inductive Fate where
  | passedOn
  | freed
  | handedOut
  deriving DecidableEq, Repr

namespace DrrTbl

/-- `Grades` of the search: five if the packet belongs to the queue. -/
def Grades (t : DrrTbl) (cfg : DrrConfig) (p : Packet) : Nat :=
  let ports :=
    (t.s_portn == p.sport.toNat || !cfg.s_portn_care).toNat +
      (t.d_portn == p.dport.toNat || !cfg.d_portn_care).toNat
  (t.s_ip == p.ip_src &&& cfg.s_mask_long).toNat + (t.d_ip == p.ip_dst &&& cfg.d_mask_long).toNat +
    (t.Protocol == p.ip_p || !cfg.protocol_care).toNat +
    (if p.ip_p = 6 then ports else if p.ip_p = 17 then ports else if p.ip_p = 1 then 2 else 0)

/-- A packet put into `SpanningTbl` or `SpecialTbl`, which does not count it. -/
def insert (t : DrrTbl) (p : Packet) : DrrTbl :=
  { t with packets := if t.Counter = 0 then [p] else t.packets ++ [p] }

/-- A packet put into the queue of its flow. -/
def append (t : DrrTbl) (p : Packet) : DrrTbl :=
  let t := { t with Counter := t.Counter + 1 }
  if t.Counter = 1 then
    { t with packets := [p], pkt_length := p.ip_len.toNat, Priority := 0, Timer := 0 }
  else if t.Counter > 1 then { t with packets := t.packets ++ [p] }
  else t

/-- The first packet taken out of `SpanningTbl` or `SpecialTbl`. -/
def remove (t : DrrTbl) : Except Halt (DrrTbl × Packet) :=
  match t.packets with
  | [] => .error .nullDeref
  | pkt :: rest => .ok ({ t with packets := rest, Counter := t.Counter - 1 }, pkt)

/-- The first packet taken out of a flow's queue, and the length of the next one noted down. -/
def serve (t : DrrTbl) : Except Halt (DrrTbl × Packet) := do
  let (t, pkt) ← { t with Priority := t.Priority - t.pkt_length }.remove
  if t.Counter > 0 then
    match t.packets with
    | [] => .error .nullDeref
    | p :: _ => .ok ({ t with pkt_length := p.ip_len.toNat }, pkt)
  else .ok ({ t with Priority := 0 }, pkt)

end DrrTbl

namespace Drr

/-- `drr::init`, with `t` for `SpanningTbl` and `SpecialTbl`. -/
def init (t : DrrTbl) : Drr :=
  let t := { t with Counter := 0, Priority := 0, Timer := 0, packets := [] }
  { tbl := fun _ => t
    Next := fun _ => none
    allocated := 0
    drrTableAll := ⟨0, none, none⟩
    DrrPacketTotal := 0
    drrTableRR := none
    drrTableRR_var := false
    SpanningTbl := t
    SpecialTbl := t }

/-- One queue is replaced. -/
def setTbl (d : Drr) (k : Nat) (t : DrrTbl) : Drr := { d with tbl := Function.update d.tbl k t }

/-- The queue behind `k` in the list becomes `p`. -/
def link (d : Drr) (k : Nat) (p : Option Nat) : Drr := { d with Next := Function.update d.Next k p }

/-! ### send -/

/-- The search for the queue of a packet. -/
def search (d : Drr) (cfg : DrrConfig) (p : Packet) : Except Halt (Option Nat) :=
  match PtrChain.find d.Next (fun k => decide ((d.tbl k).Grades cfg p = 5)) d.allocated none
      d.drrTableAll.First with
  | some r => .ok (r.map Prod.snd)
  | none => .error .diverges

/-- A queue for a packet that belongs to none. -/
def newTbl (cfg : DrrConfig) (k : Nat) (p : Packet) : DrrTbl where
  s_ip := p.ip_src &&& cfg.s_mask_long
  d_ip := p.ip_dst &&& cfg.d_mask_long
  s_portn :=
    if p.ip_p = 6 then p.sport.toNat else if p.ip_p = 17 then p.sport.toNat
    else if p.ip_p = 1 then 0 else (cfg.uninit k).1
  d_portn :=
    if p.ip_p = 6 then p.dport.toNat else if p.ip_p = 17 then p.dport.toNat
    else if p.ip_p = 1 then 0 else (cfg.uninit k).2
  Protocol := p.ip_p
  Counter := 1
  Priority := 0
  pkt_length := p.ip_len.toNat
  Timer := 0
  packets := [p]

/-- The new queue put behind the others. -/
def addTbl (d : Drr) (cfg : DrrConfig) (p : Packet) : Except Halt Drr :=
  let k := d.allocated
  let all : DrrTblAll := { d.drrTableAll with Counter := d.drrTableAll.Counter + 1 }
  let d := { d.setTbl k (newTbl cfg k p) with
    Next := Function.update d.Next k none
    allocated := k + 1
    drrTableAll := all
    DrrPacketTotal := d.DrrPacketTotal + 1 }
  if all.Counter = 1 then .ok { d with drrTableAll := { all with First := some k, Tail := some k } }
  else if all.Counter > 1 then
    match all.Tail with
    | none => .error .nullDeref
    | some tail => .ok { d.link tail (some k) with drrTableAll := { all with Tail := some k } }
  else .ok d

/-- The only packet makes its queue the one to serve. -/
def point (d : Drr) (k : Nat) : Drr :=
  if d.DrrPacketTotal = 1 then { d with drrTableRR := some k, drrTableRR_var := true } else d

/-- `drr::send` of an IP packet to a full module. -/
def enque (d : Drr) (cfg : DrrConfig) (p : Packet) : Except Halt (Drr × Option Fate) := do
  if d.DrrPacketTotal ≥ cfg.DrrMaxBufSpaceForAllFlows then .ok (d, some .freed)
  else
    match ← d.search cfg p with
    | none =>
      let d' ← d.addTbl cfg p
      .ok (d'.point d.allocated, none)
    | some drrFind =>
      let t := d.tbl drrFind
      if t.Counter ≥ cfg.DrrMaxQueLenForEachFlow then .ok (d, some .freed)
      else
        let d := { d.setTbl drrFind (t.append p) with DrrPacketTotal := d.DrrPacketTotal + 1 }
        .ok (d.point drrFind, none)

/-- `drr::send`: what becomes of the packet if it is not queued. -/
def send (d : Drr) (cfg : DrrConfig) (qfull : Bool) (p : Packet) :
    Except Halt (Drr × Option Fate) :=
  if p.ether_type = 0x0001 then
    if qfull then .ok ({ d with SpanningTbl := d.SpanningTbl.insert p }, none)
    else .ok (d, some .passedOn)
  else if p.ether_type ≠ 0x0800 then
    if qfull then .ok ({ d with SpecialTbl := d.SpecialTbl.insert p }, none)
    else .ok (d, some .passedOn)
  else if qfull then d.enque cfg p
  else .ok (d, some .passedOn)

/-! ### intrq -/

/-- The walk of `drrTableRR` to a queue with packets. -/
def seekBusy (d : Drr) : Nat → Option Nat → Except Halt Nat
  | _, none => .error .nullDeref
  | 0, some _ => .error .diverges
  | n + 1, some k =>
    if (d.tbl k).Counter ≤ 0 then
      match d.Next k with
      | none => seekBusy d n d.drrTableAll.First
      | some j => seekBusy d n (some j)
    else .ok k

/-- `drrTableRR` moved on from `rr`. -/
def moveRR (d : Drr) (rr : Nat) : Except Halt Drr := do
  if d.DrrPacketTotal > 0 then
    let start := match d.Next rr with
      | none => d.drrTableAll.First
      | some j => some j
    let k ← d.seekBusy (2 * d.allocated) start
    .ok { d with drrTableRR := some k, drrTableRR_var := true }
  else .ok { d with drrTableRR := none }

/-- A new round gives the queue `rr` its quota. -/
def giveQuota (d : Drr) (cfg : DrrConfig) (rr : Nat) : Drr :=
  let t := d.tbl rr
  if d.drrTableRR_var = true ∧ t.Counter ≠ 0 then
    { d.setTbl rr { t with Priority := t.Priority + cfg.CreditAddedPerRound } with
      drrTableRR_var := false }
  else d

/-- `drr::intrq` when there are packets of flows. -/
def serveFlows (d : Drr) (cfg : DrrConfig) : Except Halt (Drr × Option Packet) := do
  match d.drrTableRR with
  | none => .error .nullDeref
  | some rr =>
    let d := d.giveQuota cfg rr
    let t := d.tbl rr
    if t.Priority ≥ t.pkt_length ∧ t.Counter > 0 then
      let (t, pkt) ← t.serve
      let d := { d.setTbl rr t with DrrPacketTotal := d.DrrPacketTotal - 1 }
      if t.Counter ≤ 0 ∨ t.Priority < t.pkt_length then
        let d ← d.moveRR rr
        .ok (d, some pkt)
      else .ok (d, some pkt)
    else .ok (d, none)

/-- `drr::intrq`: the packet that it hands to the module below, if there is one. -/
def intrq (d : Drr) (cfg : DrrConfig) : Except Halt (Drr × Option Packet) := do
  if d.SpanningTbl.Counter > 0 then
    let (t, pkt) ← d.SpanningTbl.remove
    .ok ({ d with SpanningTbl := t }, some pkt)
  else if d.SpecialTbl.Counter > 0 then
    let (t, pkt) ← d.SpecialTbl.remove
    .ok ({ d with SpecialTbl := t }, some pkt)
  else if d.DrrPacketTotal > 0 then d.serveFlows cfg
  else .ok (d, none)

/-! ### Delete_que -/

/-- The timer of an empty queue goes on. -/
def tick (t : DrrTbl) : DrrTbl := if t.Counter ≤ 0 then { t with Timer := t.Timer + 1 } else t

/-- A queue taken out of the list, `DelFindPrev` being the node that the sweep was at before. -/
def unlink (d : Drr) (DelFindPrev : Option Nat) (DelFind : Nat) : Except Halt Drr :=
  let all := d.drrTableAll
  let all' := { all with Counter := all.Counter - 1 }
  if all.First = some DelFind then
    let First := d.Next DelFind
    .ok { d with
      drrTableAll := { all' with First := First, Tail := if First = none then none else all.Tail } }
  else
    match DelFindPrev with
    | none => .error .nullDeref
    | some prev =>
      let d := d.link prev (d.Next DelFind)
      if all.Tail = some DelFind then .ok { d with drrTableAll := { all' with Tail := some prev } }
      else .ok { d with drrTableAll := all' }

/-- The loop of `drr::Delete_que`. -/
def sweep : Nat → Option Nat → Option Nat → Drr → Except Halt Drr
  | _, _, none, d => .ok d
  | 0, _, some _, _ => .error .diverges
  | n + 1, DelFindPrev, some DelFind, d => do
    let d := d.setTbl DelFind (tick (d.tbl DelFind))
    let d ← if (d.tbl DelFind).Timer ≥ 5 then d.unlink DelFindPrev DelFind else .ok d
    sweep n (some DelFind) (d.Next DelFind) d

/-- `drr::Delete_que`. -/
def Delete_que (d : Drr) : Except Halt Drr := sweep d.allocated none d.drrTableAll.First d

end Drr

/-! ## What becomes of the packets -/

/-- The part of a packet's ports that tells flows apart. -/
inductive Ports where
  | ports (sport dport : Option UInt16)
  | icmp
  | other
  deriving DecidableEq, Repr

/-- What a packet belongs to: the spanning tree, the other types together, or an IP flow by the fields
    that are compared. -/
inductive Flow where
  | spanning
  | special
  | ip (s_ip d_ip : UInt32) (protocol : Option UInt8) (ports : Ports)
  deriving DecidableEq, Repr

/-- The flow of a packet, by what the masks and the care flags leave of its headers. -/
def Packet.flow (cfg : DrrConfig) (p : Packet) : Flow :=
  if p.ether_type = 0x0001 then .spanning
  else if p.ether_type ≠ 0x0800 then .special
  else
    .ip (p.ip_src &&& cfg.s_mask_long) (p.ip_dst &&& cfg.d_mask_long)
      (if cfg.protocol_care then some p.ip_p else none)
      (if p.ip_p = 6 ∨ p.ip_p = 17 then
        .ports (if cfg.s_portn_care then some p.sport else none)
          (if cfg.d_portn_care then some p.dport else none)
      else if p.ip_p = 1 then .icmp
      else .other)

/-- The module with the packets that were given to `send`, and what became of those that are no longer
    in a queue, in this order. -/
structure Ledger where
  drr : Drr
  arrived : List Packet
  log : List (Fate × Packet)

/-- Nothing has arrived. -/
def Ledger.init (t : DrrTbl) : Ledger where
  drr := .init t
  arrived := []
  log := []

/-- The three entry points of the module. -/
inductive Call where
  | send (qfull : Bool) (h : Header)
  | intrq
  | Delete_que
  deriving DecidableEq, Repr

/-- The packet that comes next. -/
def Ledger.packet (w : Ledger) (h : Header) : Packet := { h with ep := w.arrived.length }

/-- A call, with the packets that leave during it. -/
def Ledger.step (cfg : DrrConfig) (w : Ledger) : Call → Except Halt Ledger
  | .send qfull h => do
    let p := w.packet h
    let (d, fate) ← w.drr.send cfg qfull p
    .ok
      { drr := d
        arrived := w.arrived ++ [p]
        log := w.log ++ fate.toList.map fun f => (f, p) }
  | .intrq => do
    let (d, pkt) ← w.drr.intrq cfg
    .ok { w with drr := d, log := w.log ++ pkt.toList.map fun p => (.handedOut, p) }
  | .Delete_que => do
    let d ← w.drr.Delete_que
    .ok { w with drr := d }

/-- The packets of the flow queues `l`. -/
def Drr.flowPackets (d : Drr) (l : List Nat) : List Packet := l.flatMap fun k => (d.tbl k).packets

/-- The packets of a flow that have left, in this order. -/
def Ledger.exits (w : Ledger) (cfg : DrrConfig) (f : Flow) : List Packet :=
  (w.log.filter fun e => decide (e.1 ≠ .freed ∧ e.2.flow cfg = f)).map Prod.snd

/-- Every packet is in one place, packets of a flow leave in the order in which they arrived, and
    `DrrPacketTotal` counts the packets of the flow queues. -/
def Accounted (cfg : DrrConfig) (w : Ledger) : Prop :=
  ∃ l, PtrChain.IsChain w.drr.Next w.drr.drrTableAll.First l ∧
    (w.arrived.map (·.ep)).Nodup ∧
    w.arrived.Perm (w.log.map Prod.snd ++ w.drr.SpanningTbl.packets ++ w.drr.SpecialTbl.packets ++
      w.drr.flowPackets l) ∧
    (∀ f, (w.exits cfg f).Pairwise fun p q => p.ep < q.ep) ∧
    w.drr.DrrPacketTotal = (w.drr.flowPackets l).length

/-- The queues that a walk over the list comes to. -/
def Drr.queues (d : Drr) : List Nat := PtrChain.walk d.Next d.allocated d.drrTableAll.First

/-- The next sweep deletes the queue. -/
def Drr.expires (d : Drr) (k : Nat) : Bool := decide ((Drr.tick (d.tbl k)).Timer ≥ 5)

/-- A packet that is not of IP finds no other one in its queue when it has to wait, and an IP packet
    that need not wait no other one of its flow; behind a queue that stays, a sweep does not delete
    two queues next to each other. -/
def Careful (cfg : DrrConfig) (w : Ledger) : Call → Prop
  | .send qfull h =>
    let p := w.packet h
    if p.ether_type = 0x0001 then qfull = true → w.drr.SpanningTbl.packets = []
    else if p.ether_type ≠ 0x0800 then qfull = true → w.drr.SpecialTbl.packets = []
    else qfull = false → ∀ q ∈ w.drr.flowPackets w.drr.queues, q.flow cfg ≠ p.flow cfg
  | .intrq => True
  | .Delete_que =>
    (w.drr.queues.dropWhile w.drr.expires).IsChain fun a b =>
      ¬ (w.drr.expires a = true ∧ w.drr.expires b = true)

instance (cfg : DrrConfig) (w : Ledger) : (c : Call) → Decidable (Careful cfg w c)
  | .send _ _ => by
    unfold Careful
    infer_instance
  | .intrq => .isTrue trivial
  | .Delete_que => by
    unfold Careful
    infer_instance

/-! ## Credits and turns -/

namespace Drr

/-- The credit of the queue `rr` when it comes to its turn, its quota included. -/
def credit (d : Drr) (cfg : DrrConfig) (rr : Nat) : Int :=
  (d.tbl rr).Priority + if d.drrTableRR_var then cfg.CreditAddedPerRound else 0

/-- The queue whose turn it is can pay for its first packet. -/
def Pays (d : Drr) (cfg : DrrConfig) : Prop :=
  ∀ rr ∈ d.drrTableRR, ∀ p ∈ (d.tbl rr).packets.head?, (p.ip_len.toNat : Int) ≤ d.credit cfg rr

instance (d : Drr) (cfg : DrrConfig) : Decidable (d.Pays cfg) :=
  inferInstanceAs (Decidable (∀ rr ∈ d.drrTableRR, ∀ p ∈ (d.tbl rr).packets.head?, _))

/-- `intrq` hands out one packet if there are packets of flows. -/
def Works (d : Drr) (cfg : DrrConfig) : Prop :=
  d.DrrPacketTotal > 0 → ∃ d' pkt, d.intrq cfg = .ok (d', some pkt)

/-- Behind a queue that stays, a sweep does not delete two queues next to each other. -/
def Spares (d : Drr) : Call → Prop
  | .Delete_que =>
    (d.queues.dropWhile d.expires).IsChain fun a b => ¬ (d.expires a = true ∧ d.expires b = true)
  | _ => True

/-- The flow queue that `intrq` turns to. -/
def turn (d : Drr) : Option Nat :=
  if d.SpanningTbl.Counter > 0 ∨ d.SpecialTbl.Counter > 0 ∨ d.DrrPacketTotal ≤ 0 then none
  else d.drrTableRR

/-- The queue has been given the quota of a turn that is not over. -/
def InService (d : Drr) (k : Nat) : Prop := d.drrTableRR = some k ∧ d.drrTableRR_var = false

instance (d : Drr) (k : Nat) : Decidable (d.InService k) :=
  inferInstanceAs (Decidable (_ ∧ _))

instance (d : Drr) : (c : Call) → Decidable (d.Spares c)
  | .send _ _ => .isTrue trivial
  | .intrq => .isTrue trivial
  | .Delete_que => by
    unfold Spares
    infer_instance

end Drr

/-- The module with what every flow queue was given: how many turns have begun, and how many bytes
    were handed out. -/
structure Account where
  ledger : Ledger
  turns : Nat → Nat
  bytes : Nat → Nat

namespace Account

/-- No turn has begun, and nothing has been sent. -/
def init (t : DrrTbl) : Account where
  ledger := .init t
  turns := fun _ => 0
  bytes := fun _ => 0

/-- The module itself. -/
def drr (a : Account) : Drr := a.ledger.drr

/-- The bytes that `intrq` hands out. -/
def sent (d : Drr) (cfg : DrrConfig) : Nat :=
  match d.intrq cfg with
  | .ok (_, some pkt) => pkt.ip_len.toNat
  | _ => 0

/-- A call, with the turns and the bytes of the queue in turn. -/
def step (cfg : DrrConfig) (a : Account) (c : Call) : Except Halt Account := do
  let w ← a.ledger.step cfg c
  let served (k : Nat) : Bool := decide (c = .intrq ∧ a.drr.turn = some k)
  .ok
    { ledger := w
      turns := fun k => a.turns k + if served k ∧ a.drr.drrTableRR_var then 1 else 0
      bytes := fun k => a.bytes k + if served k then sent a.drr cfg else 0 }

/-- The queue `k` has packets waiting. -/
def Backlogged (k : Nat) (a : Account) : Prop := (a.drr.tbl k).packets ≠ []

instance (k : Nat) (a : Account) : Decidable (Backlogged k a) :=
  inferInstanceAs (Decidable (_ ≠ _))

/-- From `a` to `a'` the queue was given its quota for every turn, up to a packet of `L` bytes. -/
def Fair (cfg : DrrConfig) (L k : Nat) (a a' : Account) : Prop :=
  let turns : Int := a'.turns k - a.turns k
  let served : Int := a'.bytes k - a.bytes k
  turns * cfg.CreditAddedPerRound - L < served ∧ served < turns * cfg.CreditAddedPerRound + L

end Account

/-- A call of `send` or `intrq`; an IP packet has at most `L` bytes. -/
def Fitting (L : Nat) : Call → Prop
  | .send _ h => h.ether_type = 0x0800 → h.ip_len.toNat ≤ L
  | .intrq => True
  | .Delete_que => False

instance (L : Nat) : (c : Call) → Decidable (Fitting L c)
  | .send _ h => inferInstanceAs (Decidable (h.ether_type = 0x0800 → h.ip_len.toNat ≤ L))
  | .intrq => .isTrue trivial
  | .Delete_que => .isFalse id

/-- Every credit is from zero to less than a quota and the longest packet, and the pointer is at a
    queue with packets if there is one. -/
structure Bounded (cfg : DrrConfig) (L : Nat) (d : Drr) : Prop where
  credit_nonneg : ∀ k, 0 ≤ (d.tbl k).Priority
  credit_lt : ∀ k, (d.tbl k).Priority < cfg.CreditAddedPerRound + L
  pointer : ∀ rr, d.drrTableRR = some rr → (d.tbl rr).packets = [] → d.flowPackets d.queues = []

end Ps
