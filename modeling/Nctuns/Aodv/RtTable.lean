import Nctuns.Lib.Keyed

/-!
# The tables of AODV

`AODVrt.cc` and the types of `AODV.h`. Lists are the linked lists from their heads; the first entry of
the routing table is the node's own and is never removed.
-/

namespace Aodv

/-- An address, a `u_long`. -/
abbrev Addr := Nat

/-- A neighbour in a list. -/
structure Nei_entry where
  nei_addr : Addr
  nei_time : UInt64
  deriving DecidableEq, Repr

/-- `Neighbor::update`. -/
def Nei_entry.update (addr : Addr) (lifetime : UInt64) (l : List Nei_entry) : List Nei_entry :=
  match Keyed.get Nei_entry.nei_addr addr l with
  | none => ⟨addr, lifetime⟩ :: l
  | some _ => Keyed.update Nei_entry.nei_addr addr (fun n => { n with nei_time := lifetime }) l

/-- `RTF_INVALID` and the others. -/
inductive RtFlag where
  | INVALID
  | VALID
  | REPAIRABLE
  | BEING_REPAIRED
  deriving DecidableEq, Repr

/-- A route. -/
structure Rt_entry where
  rt_dst : Addr
  rt_nexthop : Addr
  rt_valid_dst_seqno : Bool
  rt_seqno : UInt32
  rt_hopcount : UInt8
  rt_flags : RtFlag
  rt_preclist : List Nei_entry
  rt_time : UInt64
  deriving DecidableEq, Repr

/-- The routing table: the node's own entry, and the others. -/
structure AODV_RtTable where
  rt_head : Rt_entry
  next : List Rt_entry
  deriving DecidableEq, Repr

namespace AODV_RtTable

/-- All entries. -/
def entries (t : AODV_RtTable) : List Rt_entry := t.rt_head :: t.next

/-- A new entry at the end. -/
def insert (t : AODV_RtTable) (r : Rt_entry) : AODV_RtTable := { t with next := t.next ++ [r] }

/-- The entry of a destination. -/
def rt_get (t : AODV_RtTable) (ip : Addr) : Option Rt_entry :=
  Keyed.get Rt_entry.rt_dst ip t.entries

/-- The flags of an entry; `none` stands for `RT_NOT_EXIST`. -/
def rt_lookup (t : AODV_RtTable) (ip : Addr) : Option RtFlag := (t.rt_get ip).map (·.rt_flags)

/-- What is written through the pointer that `rt_get` returns. -/
def write (t : AODV_RtTable) (ip : Addr) (f : Rt_entry → Rt_entry) : AODV_RtTable :=
  if t.rt_head.rt_dst = ip then { t with rt_head := f t.rt_head }
  else { t with next := Keyed.update Rt_entry.rt_dst ip f t.next }

/-- A new entry for a destination that has none; what there is, is written. -/
def upsert (t : AODV_RtTable) (new : Rt_entry) (f : Rt_entry → Rt_entry) : AODV_RtTable :=
  match t.rt_get new.rt_dst with
  | none => t.insert new
  | some _ => t.write new.rt_dst f

/-- A neighbour uses the route. -/
def updatePrecursorList (t : AODV_RtTable) (dst_addr nei_addr : Addr) : AODV_RtTable :=
  t.write dst_addr fun r => { r with rt_preclist := Nei_entry.update nei_addr 0 r.rt_preclist }

/-- The node's own sequence number. -/
def myOwnSeqno (t : AODV_RtTable) : UInt32 := t.rt_head.rt_seqno

/-- The node's own sequence number is counted up. -/
def incMyOwnSeqno (t : AODV_RtTable) : AODV_RtTable :=
  { t with rt_head := { t.rt_head with rt_seqno := t.rt_head.rt_seqno + 1 } }

/-- The active routes of more than one hop. -/
def rt_activeCnt (t : AODV_RtTable) : Nat :=
  (t.next.filter fun r => decide (r.rt_flags = .VALID ∧ r.rt_hopcount ≥ 2)).length

end AODV_RtTable

/-- A data packet, told apart from the others by `ep`. -/
structure Data where
  ep : Nat
  dst_ip : Addr
  ttl : UInt8
  rt_gateway : Addr
  deriving DecidableEq, Repr

/-- The packets that may wait for a destination. -/
def AODV_MAXQUEUELEN : Nat := 30

/-- The packets that wait for a route, from the first on. -/
structure Buffer where
  dst_ip : Addr
  buffer_list : List Data
  deriving DecidableEq, Repr

/-- What waits for a route, and the requests for it. -/
structure Ctrl_entry extends Buffer where
  rreq_lifetime : UInt64
  rreq_retries : UInt32
  deriving DecidableEq, Repr

/-- What waits for the repair of a route. -/
structure LocalRepair_entry extends Buffer where
  local_repair_lifetime : UInt64
  brokenlink_node : Addr
  deriving DecidableEq, Repr

/-- A packet joins those that wait. -/
def Buffer.attach (b : Buffer) (pkt : Data) : Buffer :=
  { b with buffer_list := b.buffer_list ++ [pkt] }

/-- A packet put behind those for its destination; `none` stands for a result below zero. -/
def attach {ρ : Type} (dst_ip : ρ → Addr) (buffer_list : ρ → List Data) (append : ρ → ρ)
    (in_dst_ip : Addr) (l : List ρ) : Option (List ρ) :=
  match Keyed.get dst_ip in_dst_ip l with
  | none => none
  | some c =>
    if (buffer_list c).length ≥ AODV_MAXQUEUELEN then none
    else some (Keyed.update dst_ip in_dst_ip append l)

/-- `CtrlTable::attachPkt`. -/
def Ctrl_entry.attachPkt (in_dst_ip : Addr) (pkt : Data) (l : List Ctrl_entry) :
    Option (List Ctrl_entry) :=
  attach (·.dst_ip) (·.buffer_list) (fun c => { c with toBuffer := c.attach pkt }) in_dst_ip l

/-- `LocalRepairTable::attachPkt`. -/
def LocalRepair_entry.attachPkt (in_dst_ip : Addr) (pkt : Data) (l : List LocalRepair_entry) :
    Option (List LocalRepair_entry) :=
  attach (·.dst_ip) (·.buffer_list) (fun c => { c with toBuffer := c.attach pkt }) in_dst_ip l

/-- The failures of a link. -/
structure Link_fail_entry where
  dst_ip : Addr
  acc_cnt : UInt8
  lifetime : UInt64
  deriving DecidableEq, Repr

/-- A record of the broadcast cache. -/
structure BroadcastID where
  addr : Addr
  bid : UInt32
  hopcnt : UInt8
  lifetime : UInt64
  deriving DecidableEq, Repr

end Aodv
