import Mathlib.Data.Sym.Sym2
import Nctuns.Lib.LinkGraph
import Nctuns.Lib.Run

/-!
# The spanning tree protocol of a switch

The handlers of `sw.cc` for hello packets, for the opening of ports and for the time-outs, and
networks of switches that run them. The ports of a switch are told apart by their numbers. The flags
about topology changes are kept, the learnt stations that they flush are not.
-/

namespace SpanTree

/-- A port. `PortState` is true if it is open; the vector is zero if nothing was heard. -/
structure SwPort where
  PortState : Bool
  RootID : Int
  Cost : Int
  Bridge : Int
  Age : Nat
  deriving DecidableEq, Repr

/-- What a switch takes for the root, the cost of its path to it, the switch in front of it and the port
    to that. -/
structure SpanTreeTbl where
  RootID : Int
  Cost : Int
  Bridge : Int
  RootPort : UInt8
  deriving DecidableEq, Repr

/-- A hello packet: the root, the cost and the sender. -/
structure SpanINFO where
  RootID : Int
  Cost : Int
  Bridge : Int
  TCAReservedTC : UInt8
  deriving DecidableEq, Repr

/-- A packet of the protocol. -/
inductive Packet where
  | spanINFO (info : SpanINFO)
  | topChangeINFO
  deriving DecidableEq, Repr

/-- `sw`. -/
structure Sw where
  nid : Int
  MaxAge : Nat
  PortList : List UInt8
  port : UInt8 → SwPort
  SpanTreeTbl0 : SpanTreeTbl
  TCNFlag : Bool
  TCAFlag : Bool
  FlushSwTblFlag : Bool
  STABLE : Bool
  STABLEage : Nat

/-- A switch, the packets that a handler sent and the ports for which it scheduled
    `OpenSpanTreePort`. -/
structure Handled where
  sw : Sw
  packets : List (UInt8 × Packet)
  opens : List UInt8

/-- The comparison of root, cost and bridge. -/
def Precedes (RootID Cost Bridge RootID' Cost' Bridge' : Int) : Prop :=
  RootID < RootID' ∨ (RootID = RootID' ∧ Cost < Cost') ∨
    (RootID = RootID' ∧ Cost = Cost' ∧ Bridge < Bridge')

instance (r c b r' c' b' : Int) : Decidable (Precedes r c b r' c' b') :=
  inferInstanceAs (Decidable (_ ∨ _ ∨ _))

namespace Sw

/-- `init`, with both protocols on. -/
def init (nid : Int) (MaxAge : Nat) (PortList : List UInt8) : Sw where
  nid := nid
  MaxAge := if MaxAge = 0 then 3 else MaxAge
  PortList := PortList
  port := fun _ => ⟨false, 0, 0, 0, 0⟩
  SpanTreeTbl0 := ⟨nid, 0, nid, 0⟩
  TCNFlag := false
  TCAFlag := false
  FlushSwTblFlag := false
  STABLE := false
  STABLEage := 0

/-- One port is replaced. -/
def setPort (s : Sw) (n : UInt8) (p : SwPort) : Sw := { s with port := Function.update s.port n p }

/-- `SpanTreeChange`. -/
def SpanTreeChange (s : Sw) : Sw × List (UInt8 × Packet) :=
  ({ s with STABLE := false, STABLEage := 0 },
    if s.SpanTreeTbl0.RootPort ≠ 0 then [(s.SpanTreeTbl0.RootPort, .topChangeINFO)] else [])

/-- Nothing was heard at the port. -/
def NoData (p : SwPort) : Prop := p.RootID = 0 ∧ p.Cost = 0 ∧ p.Bridge = 0

instance (p : SwPort) : Decidable (NoData p) := inferInstanceAs (Decidable (_ ∧ _ ∧ _))

/-- The switch has a better vector than the port. -/
def Designated (s : Sw) (p : SwPort) : Prop :=
  Precedes s.SpanTreeTbl0.RootID s.SpanTreeTbl0.Cost s.nid p.RootID p.Cost p.Bridge

instance (s : Sw) (p : SwPort) : Decidable (s.Designated p) :=
  inferInstanceAs (Decidable (Precedes ..))

/-- A copy of the packet leaves through port `n`. -/
def sendTo (h : Handled) (n : UInt8) (spaninfo : SpanINFO) : Handled :=
  { h with packets := h.packets ++ [(n, .spanINFO spaninfo)] }

/-- `OpenSpanTreePort` is scheduled for a closed port. -/
def schedule (h : Handled) (n : UInt8) : Handled :=
  if (h.sw.port n).PortState = false then { h with opens := h.opens ++ [n] } else h

/-- A round of the loop of `SendSpanTreePacket`. -/
def sendPort (spaninfo : SpanINFO) (h : Handled) (n : UInt8) : Handled :=
  if h.sw.SpanTreeTbl0.RootID = h.sw.nid then schedule (sendTo h n spaninfo) n
  else if NoData (h.sw.port n) then schedule (sendTo h n spaninfo) n
  else if h.sw.SpanTreeTbl0.RootPort ≠ n then
    if h.sw.Designated (h.sw.port n) then schedule (sendTo h n spaninfo) n
    else if (h.sw.port n).PortState = true then
      let s := { h.sw.setPort n { h.sw.port n with PortState := false } with TCNFlag := true }
      { h with sw := s.SpanTreeChange.1, packets := h.packets ++ s.SpanTreeChange.2 }
    else h
  else schedule h n

/-- `SendSpanTreePacket`. -/
def SendSpanTreePacket (s : Sw) : Handled :=
  let r := if s.TCNFlag = true ∧ s.SpanTreeTbl0.RootPort ≠ 0 then s.SpanTreeChange else (s, [])
  let spaninfo : SpanINFO :=
    { RootID := s.SpanTreeTbl0.RootID
      Cost := s.SpanTreeTbl0.Cost
      Bridge := s.nid
      TCAReservedTC := (if s.TCNFlag then 128 else 0) + if s.FlushSwTblFlag then 1 else 0 }
  let h : Handled :=
    s.PortList.foldl (sendPort spaninfo)
      ⟨{ r.1 with TCAFlag := s.TCNFlag, FlushSwTblFlag := false }, r.2, []⟩
  if s.SpanTreeTbl0.RootPort = 0 then
    { h with sw := { h.sw with TCNFlag := false, TCAFlag := false, FlushSwTblFlag := false } }
  else h

/-- `GetSpanTreeChange`. -/
def GetSpanTreeChange (s : Sw) : Sw :=
  if s.SpanTreeTbl0.RootPort = 0 then { s with TCNFlag := true, FlushSwTblFlag := true }
  else { s with TCNFlag := true }

/-- What `GetSpanTreePacket` records at the port. -/
def record (p : SwPort) (info : SpanINFO) : SwPort :=
  let p := { p with Age := 0 }
  if p.Bridge = 0 then { p with RootID := info.RootID, Cost := info.Cost, Bridge := info.Bridge }
  else if p.Bridge = info.Bridge then { p with RootID := info.RootID, Cost := info.Cost }
  else if Precedes info.RootID info.Cost info.Bridge p.RootID p.Cost p.Bridge then
    { p with RootID := info.RootID, Cost := info.Cost, Bridge := info.Bridge }
  else p

/-- The root vector after the vector of the root port was written. -/
def follow (s : Sw) (n : UInt8) (info : SpanINFO) : SpanTreeTbl :=
  if (s.port n).Bridge ≠ 0 ∧ (s.port n).Bridge = info.Bridge ∧ n = s.SpanTreeTbl0.RootPort then
    { s.SpanTreeTbl0 with RootID := info.RootID, Cost := info.Cost + 1 }
  else s.SpanTreeTbl0

/-- The root vector after the port was compared with it. -/
def improve (t : SpanTreeTbl) (n : UInt8) (p : SwPort) : SpanTreeTbl :=
  if p.Bridge ≠ 0 ∧ Precedes p.RootID (p.Cost + 1) p.Bridge t.RootID t.Cost t.Bridge then
    ⟨p.RootID, p.Cost + 1, p.Bridge, n⟩
  else t

/-- `GetSpanTreePacket`. -/
def GetSpanTreePacket (s : Sw) (n : UInt8) (info : SpanINFO) : Sw :=
  let root := s.SpanTreeTbl0.RootPort = n
  { s.setPort n (record (s.port n) info) with
    TCNFlag := if root ∧ info.TCAReservedTC / 128 = 1 then false else s.TCNFlag
    FlushSwTblFlag := if root ∧ info.TCAReservedTC % 128 = 1 then true else s.FlushSwTblFlag
    SpanTreeTbl0 := improve (s.follow n info) n (record (s.port n) info) }

/-- Whether `OpenSpanTreePort` opens a port. `HighOrderPort` compares the cost of the switch with the
    root of the port. -/
def MayOpen (s : Sw) (n : UInt8) : Prop :=
  s.SpanTreeTbl0.RootPort = n ∨ s.SpanTreeTbl0.RootID = s.nid ∨ NoData (s.port n) ∨
    Precedes s.SpanTreeTbl0.RootID s.SpanTreeTbl0.Cost s.SpanTreeTbl0.Bridge
      (s.port n).RootID (s.port n).RootID (s.port n).Bridge

instance (s : Sw) (n : UInt8) : Decidable (s.MayOpen n) := inferInstanceAs (Decidable (_ ∨ _ ∨ _ ∨ _))

/-- `OpenSpanTreePort` decides about the port as with the cost of the port in place of its root. -/
def CostCompared (s : Sw) (n : UInt8) : Prop :=
  s.MayOpen n ↔ s.SpanTreeTbl0.RootPort = n ∨ s.SpanTreeTbl0.RootID = s.nid ∨ NoData (s.port n) ∨
    Precedes s.SpanTreeTbl0.RootID s.SpanTreeTbl0.Cost s.SpanTreeTbl0.Bridge
      (s.port n).RootID (s.port n).Cost (s.port n).Bridge

instance (s : Sw) (n : UInt8) : Decidable (s.CostCompared n) := inferInstanceAs (Decidable (_ ↔ _))

/-- A closed port is opened. -/
def openPort (s : Sw) (n : UInt8) : Sw × List (UInt8 × Packet) :=
  if (s.port n).PortState = false then
    { s.setPort n { s.port n with PortState := true } with TCNFlag := true }.SpanTreeChange
  else (s, [])

/-- `OpenSpanTreePort`. -/
def OpenSpanTreePort (s : Sw) (n : UInt8) : Handled :=
  if s.MayOpen n then ⟨(s.openPort n).1, (s.openPort n).2, []⟩ else ⟨s, [], []⟩

/-- A round of the loop of `CheckTimeOut`, with `RootPortDeath`. -/
def checkPort (r : Handled × Bool) (n : UInt8) : Handled × Bool :=
  let s := r.1.sw
  let p := { s.port n with Age := ((s.port n).Age + 1) % 256 }
  if (s.port n).Age < s.MaxAge then
    if p.Age ≥ s.MaxAge then
      let o := (s.setPort n p).openPort n
      ({ r.1 with
          sw := o.1.setPort n ⟨(o.1.port n).PortState, 0, 0, 0, s.MaxAge % 256⟩
          packets := r.1.packets ++ o.2 },
        r.2 || s.SpanTreeTbl0.RootPort = n)
    else ({ r.1 with sw := s.setPort n p }, r.2)
  else r

/-- `CheckTimeOut`. -/
def CheckTimeOut (s : Sw) : Handled :=
  let STABLEage := if s.STABLEage < s.MaxAge then s.STABLEage + 1 else s.STABLEage
  let r := s.PortList.foldl checkPort
    (⟨{ s with STABLEage := STABLEage, STABLE := s.STABLE || decide (STABLEage ≥ s.MaxAge) }, [], []⟩,
      false)
  if r.2 then { r.1 with sw := { r.1.sw with SpanTreeTbl0 := ⟨s.nid, 0, s.nid, 0⟩ } } else r.1

end Sw

/-- A handler of a switch is called. -/
inductive Call where
  | SendSpanTreePacket
  | get (n : UInt8) (pkt : Packet)
  | OpenSpanTreePort (n : UInt8)
  | CheckTimeOut

/-- The switch handles a call. -/
def Sw.call (s : Sw) : Call → Handled
  | .SendSpanTreePacket => s.SendSpanTreePacket
  | .get n (.spanINFO info) => ⟨s.GetSpanTreePacket n info, [], []⟩
  | .get _ .topChangeINFO => ⟨s.GetSpanTreeChange, [], []⟩
  | .OpenSpanTreePort n => s.OpenSpanTreePort n
  | .CheckTimeOut => s.CheckTimeOut

/-! ## Networks -/

/-- Switches and the links between their ports. -/
structure Net (V : Type) where
  nid : V → Int
  MaxAge : V → Nat
  ports : V → List UInt8
  peer : V → UInt8 → Option (V × UInt8)

variable {V : Type}

namespace Net

/-- The link `l` joins two switches. -/
def link (net : Net V) (l : Sym2 (V × UInt8)) (v w : V) : Prop :=
  ∃ n m, net.peer v n = some (w, m) ∧ l = s((v, n), (w, m))

/-- A connected network of switches with distinct positive ids and links between two switches. -/
structure WellFormed (net : Net V) : Prop where
  nid_pos : ∀ v, 0 < net.nid v
  nid_inj : Function.Injective net.nid
  ports_nodup : ∀ v, (net.ports v).Nodup
  ports_pos : ∀ v, 0 ∉ net.ports v
  peer_mem : ∀ v n x, net.peer v n = some x → n ∈ net.ports v
  peer_symm : ∀ v n w m, net.peer v n = some (w, m) → net.peer w m = some (v, n)
  peer_ne : ∀ v n w m, net.peer v n = some (w, m) → w ≠ v
  connected : LinkGraph.Connected net.link

end Net

/-- The switches, the packets on the links with their destinations, and the ports to be opened. -/
structure State (V : Type) where
  sw : V → Sw
  flight : List ((V × UInt8) × Packet)
  scheduled : List (V × UInt8)

/-- A switch sends hello packets, a packet arrives or is lost, a port is opened, time-outs are
    checked. -/
inductive Action (V : Type) where
  | hello (v : V)
  | deliver (i : Nat)
  | lose (i : Nat)
  | openPort (i : Nat)
  | checkTimeOut (v : V)

namespace Net

variable [DecidableEq V] (net : Net V)

/-- All switches are as `init` leaves them, and no packet is on its way. -/
def init : State V :=
  ⟨fun v => Sw.init (net.nid v) (net.MaxAge v) (net.ports v), [], []⟩

/-- The packets of a switch on their links. -/
def put (v : V) (packets : List (UInt8 × Packet)) : List ((V × UInt8) × Packet) :=
  packets.filterMap fun x => (net.peer v x.1).map fun d => (d, x.2)

/-- A handler of switch `v` is called. -/
def call (x : State V) (v : V) (c : Call) : State V :=
  let h := (x.sw v).call c
  { sw := Function.update x.sw v h.sw
    flight := x.flight ++ net.put v h.packets
    scheduled := x.scheduled ++ h.opens.map fun n => (v, n) }

/-- One action of the network: a switch is called, or a packet is delivered or lost. -/
def step (x : State V) : Action V → Except Empty (State V)
  | .hello v => .ok (net.call x v .SendSpanTreePacket)
  | .deliver i =>
    match x.flight[i]? with
    | none => .ok x
    | some ((v, n), pkt) => .ok (net.call { x with flight := x.flight.eraseIdx i } v (.get n pkt))
  | .lose i => .ok { x with flight := x.flight.eraseIdx i }
  | .openPort i =>
    match x.scheduled[i]? with
    | none => .ok x
    | some (v, n) =>
      .ok (net.call { x with scheduled := x.scheduled.eraseIdx i } v (.OpenSpanTreePort n))
  | .checkTimeOut v => .ok (net.call x v .CheckTimeOut)

end Net

/-! ## Rounds -/

/-- Two states of a switch with the same root vector, port vectors and port states. -/
def Same (s s' : Sw) : Prop :=
  s'.SpanTreeTbl0 = s.SpanTreeTbl0 ∧ ∀ n ∈ s.PortList, s'.port n = { s.port n with Age := (s'.port n).Age }

instance (s s' : Sw) : Decidable (Same s s') := inferInstanceAs (Decidable (_ ∧ _))

/-- No call changes a vector or the state of a port. -/
def Quiet : Sw → List Call → Prop
  | _, [] => True
  | s, c :: cs => Same s (s.call c).sw ∧ Quiet (s.call c).sw cs

instance Quiet.decidable : (s : Sw) → (cs : List Call) → Decidable (Quiet s cs)
  | _, [] => .isTrue trivial
  | s, c :: cs => have := Quiet.decidable (s.call c).sw cs; inferInstanceAs (Decidable (_ ∧ _))

namespace Net

variable (net : Net V)

/-- What the other switches send to `w` in a round of hello packets. -/
def inbox (sw : V → Sw) (w : V) : List Call :=
  (net.ports w).flatMap fun n =>
    match net.peer w n with
    | none => []
    | some (v, m) =>
      ((sw v).call .SendSpanTreePacket).packets.filterMap fun x =>
        if x.1 = m then some (.get n x.2) else none

/-- A round of hello packets at one switch. -/
def helloRound (sw : V → Sw) (w : V) : List Call :=
  .SendSpanTreePacket :: net.inbox sw w

/-- A full round: also the ports that are scheduled are opened. -/
def fullRound (sw : V → Sw) (w : V) : List Call :=
  net.helloRound sw w ++ ((sw w).call .SendSpanTreePacket).opens.map .OpenSpanTreePort

/-- The links with two open ports. -/
def openLink (sw : V → Sw) (l : Sym2 (V × UInt8)) (v w : V) : Prop :=
  ∃ n m, net.peer v n = some (w, m) ∧ l = s((v, n), (w, m)) ∧
    ((sw v).port n).PortState = true ∧ ((sw w).port m).PortState = true

end Net

end SpanTree
