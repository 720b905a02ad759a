import Nctuns.Lib.PtrChain
import Nctuns.Lib.Run

/-!
# Switch tables

`sw.h` and `sw.cc`: the table of learnt stations, `swTable`, and the permanent table of an access
point, `pmntSwTable`, two singly linked lists of records with a pointer to the last one and a count.
A port is an `MBinder`, `π`, and is bound to a module, `μ`. Records lie in one memory; `malloc`
hands out addresses in order, and nothing reads a record that was freed.
-/

namespace Switch

/-- An Ethernet address. -/
abbrev Mac := BitVec 48

/-- The constant of the source for multicast. -/
def ETHER_MULTICAST1 : Mac := 0xff0000000000#48
/-- The broadcast address. -/
def ETHER_BROADCAST : Mac := 0xffffffffffff#48

/-- The number of entries for which a table has room. -/
def SW_TBL_MAX_ENTRYS : Int := 256

/-- How a call fails to return. -/
inductive Halt where
  | nullDeref
  | diverges
  deriving DecidableEq, Repr

/-- The mode of a switch. -/
inductive SwitchMode where
  | RunLearningBridgeProtocol
  | KnowInAdvance
  | other
  deriving DecidableEq, Repr

/-- A port of the switch: its number, the module below and the module that is bound to it. -/
structure SwPort (π μ : Type) where
  portNum : UInt8
  port : π
  bindModule : μ
  deriving DecidableEq, Repr

/-- What the commands and `init` set up. -/
structure Config (π μ : Type) where
  PortList : List (SwPort π μ)
  SWITCH_MODE : SwitchMode
  /-- `SpanningTreeProtocol` is `"on"`. -/
  SpanningTreeProtocol : Bool
  flushInterval_ : UInt64

/-- A record: an address, the port behind which it is and when it was last heard. -/
structure MapTbl (π : Type) where
  mac : Mac
  port : Option π
  portNum : UInt8
  timestamp : UInt64
  deriving DecidableEq, Repr

/-- A table: a linked list by its two ends, and a count. -/
structure SwTbl where
  head : Option Nat
  tail : Option Nat
  entrys : Int
  deriving DecidableEq, Repr

/-- Which of the two tables `targetTbl` points to. -/
inductive Target where
  | swTable
  | pmntSwTable
  deriving DecidableEq, Repr

/-- The records, their `next` links, the next address of `malloc`, and the two tables. -/
structure Tables (π : Type) where
  record : Nat → MapTbl π
  next : Nat → Option Nat
  allocated : Nat
  tbl : Target → SwTbl

/-- `ether_header` and the marks that an access point puts on a packet. -/
structure Frame (μ : Type) where
  srcMac : Mac
  dstMac : Mac
  AddEn : Bool
  DelEn : Bool
  frm : μ
  deriving DecidableEq, Repr

variable {π μ : Type}

/-- The tables that the constructor makes. -/
def Tables.new (r : MapTbl π) : Tables π where
  record := fun _ => r
  next := fun _ => none
  allocated := 0
  tbl := fun _ => ⟨none, none, 0⟩

namespace Tables

/-- One of the two tables is replaced. -/
def setTbl (s : Tables π) (t : Target) (tbl : SwTbl) : Tables π :=
  { s with tbl := Function.update s.tbl t tbl }

/-- The record behind `k` becomes `p`. -/
def link (s : Tables π) (k : Nat) (p : Option Nat) : Tables π :=
  { s with next := Function.update s.next k p }

/-- The record is heard again. -/
def refresh (s : Tables π) (mt : Nat) (timestamp : UInt64) : Tables π :=
  { s with record := Function.update s.record mt { s.record mt with timestamp := timestamp } }

/-- The walk to the first record of `mac_`, with `mtLast` and `mt` where it stops. -/
def search (s : Tables π) (mac_ : Mac) (t : Target) : Except Halt (Option (Option Nat × Nat)) :=
  match PtrChain.find s.next (fun k => decide ((s.record k).mac = mac_)) s.allocated none
      (s.tbl t).head with
  | some r => .ok r
  | none => .error .diverges

/-- `sw::delSwTbl`. -/
def delSwTbl (s : Tables π) (lastEntry : Option Nat) (delEntry : Nat) (t : Target) :
    Except Halt (Tables π) :=
  let tbl := s.tbl t
  if tbl.entrys ≤ 0 then .ok s
  else if tbl.entrys = 1 then .ok (s.setTbl t ⟨none, none, 0⟩)
  else if tbl.head = some delEntry then
    match tbl.head with
    | none => .error .nullDeref
    | some head =>
      .ok ((s.setTbl t { tbl with head := s.next head, entrys := tbl.entrys - 1 }).link
        delEntry none)
  else if tbl.tail = some delEntry then
    match lastEntry with
    | none => .error .nullDeref
    | some last =>
      .ok ((s.setTbl t { tbl with tail := some last, entrys := tbl.entrys - 1 }).link last none)
  else
    match lastEntry with
    | none => .error .nullDeref
    | some last =>
      .ok (((s.setTbl t { tbl with entrys := tbl.entrys - 1 }).link last
        (s.next delEntry)).link delEntry none)

variable [DecidableEq π]

/-- `sw::findSwTbl`: only a record of `swTable` is refreshed; a record of another port is deleted. -/
def findSwTbl (s : Tables π) (cfg : Config π μ) (currentTime : UInt64) (mac_ : Mac)
    (port_ : Option π) (t : Target) : Except Halt (Tables π × Bool) := do
  match ← s.search mac_ t with
  | none => .ok (s, false)
  | some (mtLast, mt) =>
    if (s.record mt).port = port_ then
      match t with
      | .swTable => .ok (s.refresh mt (currentTime + cfg.flushInterval_), true)
      | .pmntSwTable => .ok (s, true)
    else
      let s ← s.delSwTbl mtLast mt t
      .ok (s, false)

omit [DecidableEq π] in
/-- `sw::findport`. -/
def findport (s : Tables π) (mac_ : Mac) (t : Target) : Except Halt (Option π) := do
  match ← s.search mac_ t with
  | none => .ok none
  | some (_, mt) => .ok (s.record mt).port

omit [DecidableEq π] in
/-- The end of `addSwTbl`: a new record, appended. -/
def append (s : Tables π) (t : Target) (newRecord : MapTbl π) : Tables π :=
  let k := s.allocated
  let tbl := s.tbl t
  let s := { s with
    record := Function.update s.record k newRecord
    next := Function.update s.next k none
    allocated := k + 1 }
  match tbl.head, tbl.tail with
  | some head, some tail =>
    (s.link tail (some k)).setTbl t ⟨some head, some k, tbl.entrys + 1⟩
  | _, _ => s.setTbl t ⟨some k, some k, tbl.entrys + 1⟩

/-- `sw::addSwTbl`. -/
def addSwTbl (s : Tables π) (cfg : Config π μ) (currentTime : UInt64) (mac_ : Mac)
    (port_ : Option π) (t : Target) : Except Halt (Tables π) := do
  if (s.tbl t).entrys ≥ SW_TBL_MAX_ENTRYS then .ok s
  else
    let (s, found) ← s.findSwTbl cfg currentTime mac_ port_ t
    if found then .ok s
    else
      let (s, found) ← s.findSwTbl cfg currentTime mac_ port_ .pmntSwTable
      if found then .ok s
      else
        match cfg.PortList.find? fun p => decide (some p.port = port_) with
        | none => .error .nullDeref
        | some tmpSwPort =>
          .ok (s.append t
            { mac := mac_
              port := port_
              portNum := tmpSwPort.portNum
              timestamp := currentTime + cfg.flushInterval_ })

omit [DecidableEq π] in
/-- The loop of `sw::flushSwTbl`. -/
def flushLoop (currentTime : UInt64) : Nat → Option Nat → Option Nat → Tables π →
    Except Halt (Tables π)
  | _, _, none, s => .ok s
  | 0, _, some _, _ => .error .diverges
  | n + 1, mtLast, some mt, s =>
    let mtNext := s.next mt
    if currentTime ≥ (s.record mt).timestamp then do
      let s ← s.delSwTbl mtLast mt .swTable
      flushLoop currentTime n mtLast mtNext s
    else flushLoop currentTime n (some mt) mtNext s

omit [DecidableEq π] in
/-- `sw::flushSwTbl`. -/
def flushSwTbl (s : Tables π) (currentTime : UInt64) : Except Halt (Tables π) :=
  flushLoop currentTime s.allocated none (s.tbl .swTable).head s

end Tables

variable [DecidableEq π] [DecidableEq μ]

omit [DecidableEq π] in
/-- `frmport` of `send`, null if the frame comes from none of the ports. -/
def Config.frmport (cfg : Config π μ) (frm : μ) : Option π :=
  (cfg.PortList.find? fun p => decide (p.bindModule = frm)).map (·.port)

namespace Tables

/-- What `sw::send` does to the tables. -/
def learn (s : Tables π) (cfg : Config π μ) (currentTime : UInt64) (f : Frame μ) :
    Except Halt (Tables π) := do
  if f.dstMac = ETHER_MULTICAST1 then
    if f.AddEn then s.addSwTbl cfg currentTime f.srcMac (cfg.frmport f.frm) .pmntSwTable
    else if f.DelEn then
      match ← s.search f.srcMac .pmntSwTable with
      | none => .ok s
      | some (mtLast, mt) => s.delSwTbl mtLast mt .pmntSwTable
    else .ok s
  else if cfg.SWITCH_MODE = .RunLearningBridgeProtocol then
    s.addSwTbl cfg currentTime f.srcMac (cfg.frmport f.frm) .swTable
  else .ok s

/-- The ports that `sw::send` puts the frame on, given the `PortState` of each port number. -/
def forward (s : Tables π) (cfg : Config π μ) (PortState : UInt8 → UInt8) (f : Frame μ) :
    Except Halt (List π) := do
  let frmport := cfg.frmport f.frm
  let isOpen := fun p : SwPort π μ => !cfg.SpanningTreeProtocol || PortState p.portNum != 0
  if f.dstMac = ETHER_MULTICAST1 then .ok []
  else
    match ← s.findport f.dstMac .pmntSwTable with
    | some port_ => .ok [port_]
    | none =>
      match ← s.findport f.dstMac .swTable with
      | some port_ =>
        if some port_ ≠ frmport then
          match cfg.PortList.find? fun p => decide (p.port = port_) with
          | some p => .ok (if isOpen p then [port_] else [])
          | none => .ok []
        else .ok []
      | none =>
        if cfg.SWITCH_MODE = .KnowInAdvance ∧ f.dstMac ≠ ETHER_BROADCAST then .ok []
        else
          .ok ((cfg.PortList.filter fun p =>
            decide (frmport ≠ some p.port) && isOpen p).map (·.port))

/-- `sw::send`: the tables afterwards and the ports that the frame goes out on. -/
def send (s : Tables π) (cfg : Config π μ) (currentTime : UInt64) (PortState : UInt8 → UInt8)
    (f : Frame μ) : Except Halt (Tables π × List π) := do
  let s ← s.learn cfg currentTime f
  let out ← s.forward cfg PortState f
  .ok (s, out)

end Tables

/-! ## What a switch remembers -/

/-- A frame, with the port states at that time, or the timer of `flushSwTbl`. -/
inductive Call (μ : Type) where
  | send (currentTime : UInt64) (PortState : UInt8 → UInt8) (f : Frame μ)
  | flushSwTbl (currentTime : UInt64)

/-- A notification of an access point about a station, and no frame of that station. -/
def Frame.isNotification (f : Frame μ) : Bool :=
  decide (f.dstMac = ETHER_MULTICAST1) && (f.AddEn || f.DelEn)

/-- A switch with what it has seen: the port on which the most recent frame of each source came. -/
structure Watched (π : Type) where
  tables : Tables π
  arrived : Mac → Option π

/-- One call, and the source of a frame noted down. -/
def Watched.step (cfg : Config π μ) (w : Watched π) : Call μ → Except Halt (Watched π)
  | .send currentTime PortState f => do
    let (s, _) ← w.tables.send cfg currentTime PortState f
    .ok
      { tables := s
        arrived := if f.isNotification then w.arrived
          else Function.update w.arrived f.srcMac (cfg.frmport f.frm) }
  | .flushSwTbl currentTime => do
    let s ← w.tables.flushSwTbl currentTime
    .ok { w with tables := s }

/-- `swTable` is a list without two records of one station, `entrys` is its length and `tail` its
    last node, and the port that it has for a station is that of the station's last frame. -/
def TableRight (w : Watched π) : Prop :=
  (∃ l, PtrChain.IsList w.tables.next (w.tables.tbl .swTable).head (w.tables.tbl .swTable).tail l ∧
    (w.tables.tbl .swTable).entrys = l.length ∧
    (l.map fun k => (w.tables.record k).mac).Nodup) ∧
  ∀ m p, w.tables.findport m .swTable = .ok (some p) → w.arrived m = some p

/-- `swTable` has room, and the frame is not for the multicast address of the access points. -/
def Learns (s : Tables π) (f : Frame μ) : Prop :=
  (s.tbl .swTable).entrys < SW_TBL_MAX_ENTRYS ∧ f.dstMac ≠ ETHER_MULTICAST1

instance (s : Tables π) (f : Frame μ) : Decidable (Learns s f) := inferInstanceAs (Decidable (_ ∧ _))

/-- A frame of a station that `swTable` has on another port comes when the switch can learn it. -/
def Relocates (cfg : Config π μ) (w : Watched π) : Call μ → Prop
  | .send _ _ f => f.isNotification = false →
      ∀ p, w.tables.findport f.srcMac .swTable = .ok (some p) → some p ≠ cfg.frmport f.frm →
      Learns w.tables f
  | .flushSwTbl _ => True

instance (cfg : Config π μ) (w : Watched π) : (c : Call μ) → Decidable (Relocates cfg w c)
  | .send _ _ f =>
    match h : w.tables.findport f.srcMac .swTable with
    | .ok (some p) =>
      decidable_of_iff (f.isNotification = false → some p ≠ cfg.frmport f.frm →
        Learns w.tables f) (by simp [Relocates, h])
    | .ok none => .isTrue (by simp [Relocates, h])
    | .error _ => .isTrue (by simp [Relocates, h])
  | .flushSwTbl _ => .isTrue trivial

end Switch
