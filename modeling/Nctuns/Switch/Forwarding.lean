import Nctuns.Switch.SwitchTable

/-!
# What becomes of a frame

`sw::send` and `sw::get` again, with what they do to the packet itself: copies of it are put on ports
and it is freed, or it is put on a port.
-/

namespace Switch

/-- The group address of the hello packets. -/
def SPAN_MULTICAST : Mac := 0xffff00000000#48

/-- What is done with a packet. -/
inductive Act (π : Type) where
  /-- A copy of it is put on the port. -/
  | putCopy (port : π)
  /-- The packet itself is put on the port. -/
  | put (port : π)
  | freePacket
  deriving DecidableEq, Repr

variable {π μ : Type}

/-- The packet is gone afterwards. -/
def Act.consumes : Act π → Bool
  | .putCopy _ => false
  | .put _ => true
  | .freePacket => true

/-- The port that a packet goes out on. -/
def Act.port? : Act π → Option π
  | .putCopy port => some port
  | .put port => some port
  | .freePacket => none

/-- What the spanning tree protocol says as a frame comes. -/
structure Tree (π μ : Type) where
  PortState : SwPort π μ → UInt8
  STABLE : Bool
  /-- A packet for `SPAN_MULTICAST` has the four bytes of `TopChangeINFO`. -/
  change : Bool
  /-- The handler of a packet for `SPAN_MULTICAST` calls `flushSwTbl`. -/
  flushes : Bool

/-- The protocol is off or has the port open. -/
def Config.isOpen (cfg : Config π μ) (PortState : SwPort π μ → UInt8) (p : SwPort π μ) : Bool :=
  !cfg.SpanningTreeProtocol || PortState p != 0

variable [DecidableEq π] [DecidableEq μ]

namespace Tables

/-- The end of `sw::send`, once the source is learnt. -/
def forwardPkt (s : Tables π) (cfg : Config π μ) (PortState : SwPort π μ → UInt8) (f : Frame μ) :
    Except Halt (List (Act π)) := do
  let frmport := cfg.frmport f.frm
  -- returns without freeing the packet
  if f.dstMac = ETHER_MULTICAST1 then .ok []
  else
    match ← s.findport f.dstMac .pmntSwTable with
    | some port_ => .ok [.put port_]
    | none =>
      match ← s.findport f.dstMac .swTable with
      | some port_ =>
        if some port_ ≠ frmport then
          match cfg.PortList.find? fun p => decide (p.port = port_) with
          | some p =>
            if cfg.isOpen PortState p then .ok [.putCopy port_, .freePacket] else .ok [.freePacket]
          | none => .ok [.freePacket]
        else .ok [.freePacket]
      | none =>
        if cfg.SWITCH_MODE = .KnowInAdvance ∧ f.dstMac ≠ ETHER_BROADCAST then .ok [.freePacket]
        else
          .ok (((cfg.PortList.filter fun p =>
            decide (frmport ≠ some p.port) && cfg.isOpen PortState p).map fun p =>
              .putCopy p.port) ++ [.freePacket])

/-- `sw::send`: the tables afterwards and what was done with the packet. -/
def sendPkt (s : Tables π) (cfg : Config π μ) (currentTime : UInt64)
    (PortState : SwPort π μ → UInt8) (f : Frame μ) : Except Halt (Tables π × List (Act π)) := do
  let s ← s.learn cfg currentTime f
  let acts ← s.forwardPkt cfg PortState f
  .ok (s, acts)

/-- `sw::get`. -/
def getPkt (s : Tables π) (cfg : Config π μ) (currentTime : UInt64) (tree : Tree π μ) (f : Frame μ) :
    Except Halt (Tables π × List (Act π)) :=
  let tmpSwPort := cfg.PortList.find? fun p => decide (p.bindModule = f.frm)
  if f.dstMac = SPAN_MULTICAST then
    -- `GetSpanTreePacket` writes to the port, `GetSpanTreeChange` does not
    if tmpSwPort.isNone ∧ tree.change = false then .error .nullDeref
    else if tree.flushes then do
      let s ← s.flushSwTbl currentTime
      .ok (s, [.freePacket])
    else .ok (s, [.freePacket])
  else if cfg.SpanningTreeProtocol = false then s.sendPkt cfg currentTime tree.PortState f
  else
    match tmpSwPort with
    | none => .error .nullDeref
    | some p =>
      if tree.PortState p = 0 then .ok (s, [.freePacket])
      else if tree.STABLE = false then .ok (s, [.freePacket])
      else s.sendPkt cfg currentTime tree.PortState f

end Tables

/-! ## The law of conservation -/

/-- What was done with a frame, the tables being `s` when it was forwarded: it is consumed once, at
    most one copy is put on a port, none on the port that it came from nor on a closed one, and a
    frame to an unknown destination is put on every other open port. -/
structure Conserves (s : Tables π) (cfg : Config π μ) (PortState : SwPort π μ → UInt8) (f : Frame μ)
    (acts : List (Act π)) : Prop where
  consumed : acts.countP Act.consumes = 1
  once : ∀ p, acts.count (.putCopy p) ≤ 1
  not_arrival : ∀ p, .putCopy p ∈ acts → cfg.frmport f.frm ≠ some p
  isOpen : ∀ p, .putCopy p ∈ acts → ∃ q ∈ cfg.PortList, q.port = p ∧ cfg.isOpen PortState q = true
  flooded : (∀ t, s.findport f.dstMac t = .ok none) → ∀ q ∈ cfg.PortList,
    cfg.frmport f.frm ≠ some q.port → cfg.isOpen PortState q = true → .putCopy q.port ∈ acts

/-- A switch that knows its stations in advance does not send the frame where it does not know. -/
def KeepsIn (cfg : Config π μ) (f : Frame μ) : Prop :=
  cfg.SWITCH_MODE = .KnowInAdvance ∧ f.dstMac ≠ ETHER_BROADCAST

/-- `sw::get` drops the frame: it is a message of the protocol, or it came from a closed port, or the
    tree is not stable. -/
def Discards (cfg : Config π μ) (tree : Tree π μ) (f : Frame μ) : Prop :=
  f.dstMac = SPAN_MULTICAST ∨ cfg.SpanningTreeProtocol = true ∧
    (tree.STABLE = false ∨
      ∃ p, (cfg.PortList.find? fun p => decide (p.bindModule = f.frm)) = some p ∧
        tree.PortState p = 0)

/-- What `sw::send` does with a frame. -/
structure Forwards (s : Tables π) (cfg : Config π μ) (PortState : SwPort π μ → UInt8) (f : Frame μ)
    (acts : List (Act π)) : Prop where
  consumed : f.dstMac ≠ ETHER_MULTICAST1 → acts.countP Act.consumes = 1
  /-- Copies are made before that. -/
  last : ∀ front a back, acts = front ++ a :: back → a.consumes = true → back = []
  /-- A notification of an access point goes nowhere. -/
  noticed : f.dstMac = ETHER_MULTICAST1 → acts.filterMap Act.port? = []
  once : (acts.filterMap Act.port?).Nodup
  not_arrival : ∀ p, .putCopy p ∈ acts → cfg.frmport f.frm ≠ some p
  isOpen : ∀ p, .putCopy p ∈ acts → ∃ q ∈ cfg.PortList, q.port = p ∧ cfg.isOpen PortState q = true
  /-- The frame itself goes only where the permanent table says. -/
  recorded : ∀ p, .put p ∈ acts → s.findport f.dstMac .pmntSwTable = .ok (some p)
  flooded : f.dstMac ≠ ETHER_MULTICAST1 → ¬ KeepsIn cfg f →
    (∀ t, s.findport f.dstMac t = .ok none) → ∀ q ∈ cfg.PortList,
      cfg.frmport f.frm ≠ some q.port → cfg.isOpen PortState q = true → .putCopy q.port ∈ acts

end Switch
