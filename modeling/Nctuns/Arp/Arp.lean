import Mathlib.Algebra.Order.Ring.Int
import Nctuns.Lib.Keyed
import Nctuns.Lib.Run

/-!
# ARP

`arp.cc` in the mode `RunARP`: a packet for an address that is not known waits in the table, one for each
address, until a reply comes or its entry is flushed. The state has a log of what the module has done,
the latest event first, next to its table.
-/

namespace Arp

/-- An IP address. -/
abbrev Ip := BitVec 32

/-- An Ethernet address. -/
abbrev Mac := BitVec 48

/-- The room of the table. -/
def ARP_TBL_MAX_ENTRYS : Nat := 65536

/-- The address of an entry that waits for one. -/
def ETHER_NULLADDR : Mac := 0

/-- The broadcast address. -/
def ETHER_BROADCAST : Mac := BitVec.allOnes 48

/-- The operation of a request. -/
def ARPOP_REQUEST : BitVec 16 := 1

/-- The operation of a reply. -/
def ARPOP_REPLY : BitVec 16 := 2

/-- A packet with its next hop. -/
structure Packet where
  id : Nat
  rt_gateway : Ip
  deriving DecidableEq, Repr

/-- An entry: an address, when it was stored, and the packet that waits for it. -/
structure MapTbl where
  ip : Ip
  mac : Mac
  timestamp : Nat
  pkt : Option Packet
  deriving DecidableEq, Repr

/-- An ARP packet. -/
structure ArpPkt where
  ar_op : BitVec 16
  ar_sha : Mac
  ar_spa : Ip
  ar_tpa : Ip
  deriving DecidableEq, Repr

/-- What the module has done, or what has happened to it. -/
inductive Event where
  | given (pkt : Packet)
  | heard (spa : Ip) (sha : Mac)
  | sent (pkt : Packet) (mac : Mac)
  | freed (pkt : Packet)
  | callout (pkt : Packet)
  | request (tpa : Ip)
  | reply (tpa : Ip) (tha : Mac)
  deriving DecidableEq, Repr

/-- The module: its table, and the log of what has happened. -/
structure State where
  ip_ : Ip
  flushInterval_ : Nat
  arpTable : List MapTbl
  log : List Event
  deriving DecidableEq, Repr

/-- How a call ends the program. -/
inductive Fault where
  /-- An entry is read that a loop over the table has not found. -/
  | null
  | assertion
  deriving DecidableEq, Repr

namespace State

/-- An empty table. -/
def init (ip_ : Ip) (flushInterval_ : Nat) : State := ⟨ip_, flushInterval_, [], []⟩

/-- An event joins the log. -/
def record (s : State) (e : Event) : State := { s with log := e :: s.log }

/-- `GetCurrentTime() + flushInterval_`, in 64 bits. -/
def stamp (s : State) (now : Nat) : Nat := (now + s.flushInterval_) % 2 ^ 64

/-- The entry of the table that a loop from its head finds. -/
def entry (s : State) (ip : Ip) : Option MapTbl := Keyed.get MapTbl.ip ip s.arpTable

/-- The entry of an address is written. -/
def setEntry (s : State) (ip : Ip) (f : MapTbl → MapTbl) : State :=
  { s with arpTable := Keyed.update MapTbl.ip ip f s.arpTable }

/-- The last byte of the address in memory is 255. -/
def isBroadcast (ip : Ip) : Prop := ip.extractLsb' 24 8 = 255

instance (ip : Ip) : Decidable (isBroadcast ip) := inferInstanceAs (Decidable (_ = _))

/-- `findArpTbl`, with the value of `recordExistButNoMac`. -/
def findArpTbl (s : State) (now : Nat) (ipDst : Ip) : State × (Option Mac × Bool) :=
  if isBroadcast ipDst then (s, some ETHER_BROADCAST, false)
  else
    match s.entry ipDst with
    | some mt =>
      if mt.mac ≠ ETHER_NULLADDR then
        (s.setEntry ipDst fun mt => { mt with timestamp := s.stamp now }, some mt.mac, false)
      else (s, none, true)
    | none => (s, none, false)

/-- A new entry, if the table has room. -/
def addArpTbl (s : State) (now : Nat) (ip : Ip) (mac : Option Mac) (pkt : Option Packet) : State :=
  if s.arpTable.length ≥ ARP_TBL_MAX_ENTRYS then s
  else { s with arpTable := s.arpTable ++ [⟨ip, mac.getD ETHER_NULLADDR, s.stamp now, pkt⟩] }

/-- A held packet goes: a copy of it is called out, and it is freed. -/
def freeHeld (log : List Event) : Option Packet → List Event
  | some pkt => .freed pkt :: .callout pkt :: log
  | none => log

/-- A packet waits in the entry, and one that was there is freed. -/
def updatePktBuf (s : State) (ipDst : Ip) (pkt : Packet) : Except Fault State :=
  match s.entry ipDst with
  | none => .error .null
  | some mt =>
    .ok { s.setEntry ipDst fun mt => { mt with pkt := some pkt } with log := freeHeld s.log mt.pkt }

/-- A request is sent. -/
def arpRequest (s : State) (ipDst : Ip) : State := s.record (.request ipDst)

/-- A packet from above. -/
def send (s : State) (now : Nat) (pkt : Packet) : Except Fault State :=
  match (s.record (.given pkt)).findArpTbl now pkt.rt_gateway with
  | (s, some macDst, _) => .ok (s.record (.sent pkt macDst))
  | (s, none, true) => s.updatePktBuf pkt.rt_gateway pkt
  | (s, none, false) =>
    .ok ((s.addArpTbl now pkt.rt_gateway none (some pkt)).arpRequest pkt.rt_gateway)

/-- `freeArpUpdate`, and whether it has found an entry. -/
def freeArpUpdate (s : State) (now : Nat) (p : ArpPkt) : State × Bool :=
  match s.entry p.ar_spa with
  | some _ => (s.setEntry p.ar_spa fun mt => { mt with mac := p.ar_sha, timestamp := s.stamp now }, true)
  | none => (s, false)

/-- An entry for the sender of an ARP packet. -/
def freeArpLearning (s : State) (now : Nat) (p : ArpPkt) : State :=
  s.addArpTbl now p.ar_spa (some p.ar_sha) none

/-- A reply is sent. -/
def arpReply (s : State) (p : ArpPkt) : State := s.record (.reply p.ar_spa p.ar_sha)

/-- The packet that waits in the entry is sent. -/
def resumeSend (s : State) (p : ArpPkt) : Except Fault State :=
  match s.entry p.ar_spa with
  | none => .error .null
  | some mt =>
    match mt.pkt with
    | none => .ok s
    | some pkt => .ok ((s.setEntry p.ar_spa fun mt => { mt with pkt := none }).record (.sent pkt mt.mac))

/-- An ARP packet arrives. -/
def recv (s : State) (now : Nat) (p : ArpPkt) : Except Fault State :=
  let (s, mergeFlag) := (s.record (.heard p.ar_spa p.ar_sha)).freeArpUpdate now p
  if p.ar_tpa = s.ip_ then
    let s := if mergeFlag then s else s.freeArpLearning now p
    if p.ar_op = ARPOP_REQUEST then .ok (s.arpReply p)
    else if p.ar_op = ARPOP_REPLY then s.resumeSend p
    else .error .assertion
  else .ok s

/-- The loop of `flushArpTbl`, with `delArpTbl`: what is left of the table, and the log. -/
def flushFrom (now : Nat) : List MapTbl → List Event → List MapTbl × List Event
  | [], log => ([], log)
  | mt :: rest, log =>
    if now ≥ mt.timestamp then flushFrom now rest (freeHeld log mt.pkt)
    else (mt :: (flushFrom now rest log).1, (flushFrom now rest log).2)

/-- Old entries are removed, and their packets freed. -/
def flushArpTbl (s : State) (now : Nat) : State :=
  { s with
    arpTable := (flushFrom now s.arpTable s.log).1
    log := (flushFrom now s.arpTable s.log).2 }

end State

/-- A packet comes from above, an ARP packet comes in, or the timer goes off. -/
inductive Input where
  | send (now : Nat) (pkt : Packet)
  | recv (now : Nat) (p : ArpPkt)
  | flush (now : Nat)
  deriving DecidableEq, Repr

/-! ## Where the packets are -/

/-- The packet that has come from above. -/
def Event.given? : Event → Option Packet
  | .given pkt => some pkt
  | _ => none

/-- The packet that has been sent. -/
def Event.sent? : Event → Option Packet
  | .sent pkt _ => some pkt
  | _ => none

/-- The packet that has been freed. -/
def Event.freed? : Event → Option Packet
  | .freed pkt => some pkt
  | _ => none

/-- The address that a host has announced last. -/
def announced : List Event → Ip → Option Mac
  | [], _ => none
  | .heard spa sha :: log, ip => if spa = ip then some sha else announced log ip
  | _ :: log, ip => announced log ip

/-- The address that packets for a next hop are to be sent to. -/
def nextHopMac (log : List Event) (ip : Ip) : Option Mac :=
  if State.isBroadcast ip then some ETHER_BROADCAST else announced log ip

/-- Each packet has been sent on with the address that its next hop had announced last. -/
def SentRight : List Event → Prop
  | [] => True
  | .sent pkt mac :: log => nextHopMac log pkt.rt_gateway = some mac ∧ SentRight log
  | _ :: log => SentRight log

namespace State

/-- The packets that wait. -/
def held (s : State) : List Packet := s.arpTable.filterMap MapTbl.pkt

/-- Each packet given is sent on, held or freed, as many times as it was given. A held one is in the
    entry of its next hop, of which no address is known. -/
structure Accounted (s : State) : Prop where
  balanced : ∀ pkt, (s.log.filterMap Event.given?).count pkt =
    (s.log.filterMap Event.sent?).count pkt + s.held.count pkt + (s.log.filterMap Event.freed?).count pkt
  sentRight : SentRight s.log
  nextHop : ∀ mt ∈ s.arpTable, ∀ pkt ∈ mt.pkt, pkt.rt_gateway = mt.ip
  waiting : ∀ mt ∈ s.arpTable, mt.pkt.isSome → mt.mac = ETHER_NULLADDR
  nodup : (s.arpTable.map MapTbl.ip).Nodup

/-- The module after an input. -/
def step (s : State) : Input → Except Fault State
  | .send now pkt => s.send now pkt
  | .recv now p => s.recv now p
  | .flush now => .ok (s.flushArpTbl now)

/-- The step finds the entries that it looks for, and leaves the packets accounted for. -/
def Holds (s : State) (i : Input) : Prop := s.step i ≠ .error .null ∧ ∀ t, s.step i = .ok t → t.Accounted

/-- The table is not full when an entry must be added, and an address of a host for which a packet waits
    comes with something for this node that is not a request. -/
def Covered (s : State) : Input → Prop
  | .send _ pkt => ¬ isBroadcast pkt.rt_gateway → s.entry pkt.rt_gateway = none →
      s.arpTable.length < ARP_TBL_MAX_ENTRYS
  | .recv _ p =>
    (∀ mt ∈ s.entry p.ar_spa, mt.pkt.isSome → p.ar_sha ≠ ETHER_NULLADDR →
      p.ar_tpa = s.ip_ ∧ p.ar_op ≠ ARPOP_REQUEST) ∧
    (s.entry p.ar_spa = none → p.ar_tpa = s.ip_ → p.ar_op = ARPOP_REPLY →
      s.arpTable.length < ARP_TBL_MAX_ENTRYS)
  | .flush _ => True

end State

end Arp
