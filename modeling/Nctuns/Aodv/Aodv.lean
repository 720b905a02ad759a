import Nctuns.Aodv.RtTable

/-!
# AODV

`AODV.cc`: a node's state, what it does with the messages and packets it gets, and its timers' handlers.
What a call hands to the module below or above, and what it frees, is added to `out`, in this order;
of the packets that it frees only those of data are noted there.
-/

namespace Aodv

/-- `inet_addr("1.0.255.255")`. -/
def BROADCAST : Addr := 0xffff0001

/-- No address, as `brokenlink_node`. -/
def NO_USE : Addr := 0

/-- The hops after which a search is no longer widened step by step. -/
def TTL_THRESHOLD : UInt8 := 7

/-- The failures after which a link is given up. -/
def LINK_FAIL_THRESHOLD : UInt8 := 4

/-- How long failures of a link are counted. -/
def LINK_FAIL_LIFETIME : UInt64 := 500

/-- What `vBind` and `init` set, in ticks. -/
structure Config where
  hello_interval_ : UInt64
  ALLOWED_HELLO_LOSS : UInt64
  active_route_timeout_ : UInt64
  my_route_timeout_ : UInt64
  node_traversal_time_ : UInt64
  net_traversal_time_ : UInt64
  path_discovery_time_ : UInt64
  delete_period_ : UInt64
  NET_DIAMETER : UInt8
  RREQ_RETRIES : UInt32
  RREQ_RATELIMIT : Int
  RERR_RATELIMIT : Int
  is_ipv4_broadcast : Addr → Bool

/-- The defaults of `AODV.h`, a tick being a tenth of a microsecond. -/
def Config.defaults : Config where
  hello_interval_ := 10000000
  ALLOWED_HELLO_LOSS := 2
  active_route_timeout_ := 30000000
  my_route_timeout_ := 60000000
  node_traversal_time_ := 400000
  net_traversal_time_ := 9000000
  path_discovery_time_ := 18000000
  delete_period_ := 30000000
  NET_DIAMETER := 15
  RREQ_RETRIES := 5
  RREQ_RATELIMIT := 10
  RERR_RATELIMIT := 10
  is_ipv4_broadcast := fun ip => ip == BROADCAST

/-- A route request. -/
structure RREQ_msg where
  G : Bool
  D : Bool
  U : Bool
  rreq_hopcount : UInt8
  rreq_id : UInt32
  rreq_dst_addr : Addr
  rreq_dst_seqno : UInt32
  rreq_src_addr : Addr
  rreq_src_seqno : UInt32
  deriving DecidableEq, Repr

/-- A route reply. -/
structure RREP_msg where
  rrep_hopcount : UInt8
  rrep_dst_addr : Addr
  rrep_dst_seqno : UInt32
  rrep_ori_addr : Addr
  rrep_lifetime : UInt64
  deriving DecidableEq, Repr

/-- A Hello is a `rrep` to `BROADCAST`. -/
inductive Msg where
  | rreq (m : RREQ_msg)
  | rrep (m : RREP_msg)
  | rerr (unreach : List (Addr × UInt32))
  deriving DecidableEq, Repr

/-- A control packet: its header and its message. -/
structure AODV_packet where
  src_ip : Addr
  dst_ip : Addr
  ttl : UInt8
  msg : Msg
  deriving DecidableEq, Repr

/-- What becomes of a message (with its gateway) or of a packet. -/
inductive Out where
  | ctrl (gw : Addr) (p : AODV_packet)
  | sent (p : Data)
  | passed (p : Data)
  | freed (p : Data)
  deriving DecidableEq, Repr

/-- What a call finds: the clock, whether the queue of the module below has packets when so many were
    handed out, and what is in memory that nothing has written. -/
structure Env where
  now : UInt64
  get_curqlen : Nat → Bool
  rt_seqno : UInt32
  hopcnt : UInt8
  addr : Addr

/-- The module of a node: its tables, its queue and what it has sent. -/
structure AODV where
  mip : Addr
  rreq_id : UInt32
  rtable : AODV_RtTable
  ctrl_table : List Ctrl_entry
  local_repair_table : List LocalRepair_entry
  link_fail_list : List Link_fail_entry
  bcache : List BroadcastID
  nei_list : List Nei_entry
  acc_rreq : Int
  acc_rerr : Int
  rd_queue : List Data
  out : List Out
  deriving DecidableEq, Repr

namespace AODV

variable (cfg : Config) (e : Env)

/-- `qmax_`. -/
def qmax_ : Nat := 5

/-- `INFINITY_LIFETIME`. -/
def INFINITY_LIFETIME : UInt64 := 0x7fffffff

/-- `AODV::init`, without the timers. -/
def init (mip : Addr) : AODV where
  mip := mip
  rreq_id := 0
  rtable := ⟨⟨mip, mip, true, 1, 0, .VALID, [], INFINITY_LIFETIME⟩, []⟩
  ctrl_table := []
  local_repair_table := []
  link_fail_list := []
  bcache := []
  nei_list := []
  acc_rreq := 0
  acc_rerr := 0
  rd_queue := []
  out := []

/-- Something leaves the module. -/
def put (s : AODV) (o : Out) : AODV := { s with out := s.out ++ [o] }

/-! ### Messages sent -/

/-- A route request of the node itself. -/
def sendRREQ (s : AODV) (dst : Addr) (ttl : UInt8) : AODV :=
  let known := (s.rtable.rt_get dst).filter (·.rt_valid_dst_seqno)
  let rreq_id := s.rreq_id + 1
  let my_rreq : RREQ_msg :=
    { G := false
      D := false
      U := known.isNone
      rreq_hopcount := 0
      rreq_id := rreq_id
      rreq_dst_addr := dst
      rreq_dst_seqno := (known.map (·.rt_seqno)).getD e.rt_seqno
      rreq_src_addr := s.mip
      rreq_src_seqno := s.rtable.myOwnSeqno }
  let lifetime := e.now + cfg.path_discovery_time_
  let bcache := match Keyed.get BroadcastID.addr s.mip s.bcache with
    | some _ => Keyed.update BroadcastID.addr s.mip
        (fun b => { b with bid := if b.bid > rreq_id then b.bid else rreq_id, lifetime := lifetime })
        s.bcache
    | none => ⟨s.mip, rreq_id, e.hopcnt, lifetime⟩ :: s.bcache
  { s with rreq_id := rreq_id, bcache := bcache }.put
    (.ctrl BROADCAST ⟨s.mip, BROADCAST, ttl, .rreq my_rreq⟩)

/-- A route request of another node is sent on. -/
def forwardRREQ (s : AODV) (my_rreq : RREQ_msg) (cur_ttl : UInt8) : AODV :=
  s.put (.ctrl BROADCAST ⟨s.mip, BROADCAST, cur_ttl, .rreq my_rreq⟩)

/-- A route reply of the node itself. -/
def sendRREP (s : AODV) (dst src toward : Addr) (hopcount : UInt8) (seqno : UInt32)
    (lifetime : UInt64) : AODV :=
  s.put (.ctrl toward ⟨s.mip, toward, cfg.NET_DIAMETER, .rrep ⟨hopcount, dst, seqno, src, lifetime⟩⟩)

/-- A route reply of another node is sent on towards its originator. -/
def forwardRREP (s : AODV) (my_rrep : RREP_msg) (cur_ttl : UInt8) : AODV :=
  match s.rtable.rt_get my_rrep.rrep_ori_addr with
  | some rt_ori =>
    if rt_ori.rt_flags = .VALID then
      s.put (.ctrl rt_ori.rt_nexthop ⟨s.mip, rt_ori.rt_nexthop, cur_ttl, .rrep my_rrep⟩)
    else s
  | none => s

/-- The tuples that a message with an eight-bit count of them has. -/
def tuples (p_ulist : List (Addr × UInt32)) : List (Addr × UInt32) :=
  p_ulist.take (p_ulist.length % 256)

/-- A route error to one neighbour. -/
def sendRERR (s : AODV) (precursor_ip : Addr) (p_ulist : List (Addr × UInt32)) : AODV :=
  s.put (.ctrl precursor_ip ⟨s.mip, precursor_ip, 0, .rerr (tuples p_ulist)⟩)

/-- A route error to all neighbours. -/
def bcastRERR (s : AODV) (p_ulist : List (Addr × UInt32)) : AODV :=
  s.put (.ctrl BROADCAST ⟨s.mip, BROADCAST, 0, .rerr (tuples p_ulist)⟩)

/-- `sendRERR` to every precursor, while the limit allows. -/
def warn (s : AODV) (unr_list : List (Addr × UInt32)) (precursors : List Nei_entry) : AODV :=
  precursors.foldl (fun s p_nei =>
    if s.acc_rerr ≤ cfg.RERR_RATELIMIT then
      { s.sendRERR p_nei.nei_addr unr_list with acc_rerr := s.acc_rerr + 1 }
    else s) s

/-! ### Packets of data -/

/-- A data packet is sent down, waits, or is freed where the queue is full. -/
def sendToQueue (s : AODV) (pkt : Data) : AODV :=
  if e.get_curqlen s.out.length then
    if s.rd_queue.length < qmax_ then { s with rd_queue := s.rd_queue ++ [pkt] }
    else s.put (.freed pkt)
  else s.put (.sent pkt)

/-- The first data packet that waits is sent down. -/
def push (s : AODV) : AODV :=
  match s.rd_queue with
  | [] => s
  | pkt :: rest => { s with rd_queue := rest }.put (.sent pkt)

/-- The packets of a buffer, sent to the next hop of a new route. -/
def release (s : AODV) (gw : Addr) (buffer_list : List Data) : AODV :=
  buffer_list.foldl (fun s p => s.sendToQueue e { p with rt_gateway := gw }) s

/-- The second half of `processBuffered`. -/
def processRepaired (s : AODV) (new_rt_addr : Addr) : AODV :=
  match Keyed.get (·.dst_ip) new_rt_addr s.local_repair_table with
  | none => s
  | some c =>
    match s.rtable.rt_get new_rt_addr with
    | some r =>
      if r.rt_flags = .VALID then
        let s := s.release e r.rt_nexthop c.buffer_list
        { s with local_repair_table := Keyed.remove (·.dst_ip) new_rt_addr s.local_repair_table }
      else s
    | none => s

/-- The packets that wait for a new route are sent. -/
def processBuffered (s : AODV) (new_rt_addr : Addr) : AODV :=
  match Keyed.get (·.dst_ip) new_rt_addr s.ctrl_table with
  | none => s.processRepaired e new_rt_addr
  | some c =>
    match s.rtable.rt_get new_rt_addr with
    | some r =>
      if r.rt_flags = .VALID then
        let s := s.release e r.rt_nexthop c.buffer_list
        { s with ctrl_table := Keyed.remove (·.dst_ip) new_rt_addr s.ctrl_table }.processRepaired e
          new_rt_addr
      else s
    | none => s

/-- `attachPkt` on the table of local repairs; a packet that does not fit is freed. -/
def attachRepair (s : AODV) (dst_ip : Addr) (pkt : Data) : AODV :=
  match LocalRepair_entry.attachPkt dst_ip pkt s.local_repair_table with
  | some l => { s with local_repair_table := l }
  | none => s.put (.freed pkt)

/-- `LocalRepairTable::insert`. -/
def insertRepair (s : AODV) (dst : Addr) (disc_node : Addr) : AODV :=
  let brokenlink_node := if disc_node ≠ NO_USE then disc_node else e.addr
  { s with
    local_repair_table :=
      ⟨⟨dst, []⟩, e.now + cfg.net_traversal_time_, brokenlink_node⟩ :: s.local_repair_table }

/-- Each time a route is used its lifetime is updated. -/
def useRoute (s : AODV) (dst_ip : Addr) : AODV :=
  { s with
    rtable := s.rtable.write dst_ip fun r => { r with rt_time := e.now + cfg.active_route_timeout_ } }

/-- `AODV::recv` of a data packet for another node whose TTL was not used up. -/
def forward (s : AODV) (pkt : Data) : AODV :=
  let dst_ip := pkt.dst_ip
  match s.rtable.rt_get dst_ip with
  | none => s.put (.freed pkt)
  | some r =>
    match r.rt_flags with
    | .VALID =>
      (s.useRoute cfg e dst_ip).sendToQueue e { pkt with rt_gateway := r.rt_nexthop }
    | .INVALID => (s.warn cfg [(dst_ip, r.rt_seqno)] r.rt_preclist).put (.freed pkt)
    | .REPAIRABLE =>
      match Keyed.get (·.dst_ip) dst_ip s.local_repair_table with
      | some _ => s.attachRepair dst_ip pkt
      | none =>
        let s := s.insertRepair cfg e dst_ip NO_USE
        match LocalRepair_entry.attachPkt dst_ip pkt s.local_repair_table with
        | none => s.put (.freed pkt)
        | some l =>
          let s := { s with local_repair_table := l }
          let s :=
            if s.acc_rreq ≤ cfg.RREQ_RATELIMIT then
              let s :=
                { s with
                  rtable := s.rtable.write dst_ip fun r => { r with rt_seqno := r.rt_seqno + 1 } }
              let s := s.sendRREQ cfg e dst_ip (r.rt_hopcount + TTL_THRESHOLD)
              { s with
                acc_rreq := s.acc_rreq + 1
                rtable := s.rtable.write dst_ip fun r => { r with rt_flags := .BEING_REPAIRED } }
            else s
          s.put (.freed pkt)
    | .BEING_REPAIRED =>
      match Keyed.get (·.dst_ip) dst_ip s.local_repair_table with
      | some _ => s.attachRepair dst_ip pkt
      | none => (s.insertRepair cfg e dst_ip NO_USE).attachRepair dst_ip pkt

/-- `AODV::recv` of a data packet. -/
def recvData (s : AODV) (pkt : Data) : AODV :=
  if pkt.dst_ip = s.mip ∨ cfg.is_ipv4_broadcast pkt.dst_ip then s.put (.passed pkt)
  else if pkt.ttl ≤ 1 then s.put (.passed pkt)
  else forward cfg e s { pkt with ttl := pkt.ttl - 1 }

/-- A data packet from above. -/
def send (s : AODV) (pkt : Data) : AODV :=
  let dst_ip := pkt.dst_ip
  if cfg.is_ipv4_broadcast dst_ip then s.sendToQueue e pkt
  else if s.rtable.rt_lookup dst_ip = some .VALID then
    (s.useRoute cfg e dst_ip).sendToQueue e
      { pkt with rt_gateway := ((s.rtable.rt_get dst_ip).map (·.rt_nexthop)).getD pkt.rt_gateway }
  else
    match Keyed.get (·.dst_ip) dst_ip s.ctrl_table with
    | some _ =>
      match Ctrl_entry.attachPkt dst_ip pkt s.ctrl_table with
      | some l => { s with ctrl_table := l }
      | none => s.put (.freed pkt)
    | none =>
      let ctrl_table := ⟨⟨dst_ip, []⟩, e.now + cfg.net_traversal_time_, 0⟩ :: s.ctrl_table
      match Ctrl_entry.attachPkt dst_ip pkt ctrl_table with
      | none => { s with ctrl_table := ctrl_table }.put (.freed pkt)
      | some l =>
        let s := { s with ctrl_table := l }
        if s.acc_rreq ≤ cfg.RREQ_RATELIMIT then
          let s := s.sendRREQ cfg e dst_ip cfg.NET_DIAMETER
          { s with acc_rreq := s.acc_rreq + 1 }
        else s

/-- The packet comes back from the module below, which could not send it. -/
def LinkLayerCall (s : AODV) (pkt : Data) : AODV :=
  let dst := pkt.dst_ip
  match Keyed.get (·.dst_ip) dst s.local_repair_table with
  | some _ => s.attachRepair dst pkt
  | none =>
    match Keyed.get (·.dst_ip) dst s.link_fail_list with
    | none =>
      { s with link_fail_list := ⟨dst, 1, LINK_FAIL_LIFETIME⟩ :: s.link_fail_list }.put (.sent pkt)
    | some p_link_f =>
      let s :=
        { s with
          link_fail_list := Keyed.update (·.dst_ip) dst
            (fun l => { l with acc_cnt := l.acc_cnt + 1, lifetime := LINK_FAIL_LIFETIME })
            s.link_fail_list }
      if p_link_f.acc_cnt + 1 < LINK_FAIL_THRESHOLD then s.put (.sent pkt)
      else
        let s := s.insertRepair cfg e dst pkt.rt_gateway
        match LocalRepair_entry.attachPkt dst pkt s.local_repair_table with
        | none => s.put (.freed pkt)
        | some l =>
          let s := { s with local_repair_table := l }
          match s.rtable.rt_get dst with
          | none => s
          | some r =>
            if r.rt_flags = .BEING_REPAIRED then s
            else
              let s :=
                { s with
                  rtable := s.rtable.write dst fun r =>
                    { r with rt_seqno := r.rt_seqno + 1, rt_flags := .BEING_REPAIRED } }
              s.sendRREQ cfg e dst r.rt_hopcount

/-! ### Messages received -/

/-- The reverse route to the node that a message comes from. -/
def updateSimpleRRoute (s : AODV) (prevhop_ip : Addr) : AODV :=
  let rt_time := e.now + cfg.my_route_timeout_
  { s with
    rtable := s.rtable.upsert ⟨prevhop_ip, prevhop_ip, false, e.rt_seqno, 1, .VALID, [], rt_time⟩
      fun r =>
        { r with rt_flags := .VALID, rt_nexthop := prevhop_ip, rt_hopcount := 1, rt_time := rt_time } }

/-- The loop of `recv` over `bcache`: what it leaves there, and if it frees the RREQ. -/
def checkRREQ (my_rreq : RREQ_msg) : List BroadcastID → List BroadcastID × Bool
  | [] => ([], false)
  | b :: l =>
    let rest := checkRREQ my_rreq l
    if b.addr = my_rreq.rreq_src_addr then
      if b.bid > my_rreq.rreq_id then (b :: l, true)
      else if b.bid = my_rreq.rreq_id then
        if b.hopcnt ≤ my_rreq.rreq_hopcount then (b :: l, true)
        else ({ b with hopcnt := my_rreq.rreq_hopcount } :: rest.1, rest.2)
      else ({ b with bid := my_rreq.rreq_id } :: rest.1, rest.2)
    else (b :: rest.1, rest.2)

/-- The broadcast id cache after a RREQ, and if the RREQ is a duplicate. -/
def updateBcache (my_rreq : RREQ_msg) (bcache : List BroadcastID) : List BroadcastID × Bool :=
  let (l, duplicate) := checkRREQ my_rreq bcache
  if duplicate then (l, true)
  else
    match Keyed.get BroadcastID.addr my_rreq.rreq_src_addr bcache with
    | some _ => (l, false)
    | none =>
      (⟨my_rreq.rreq_src_addr, my_rreq.rreq_id, my_rreq.rreq_hopcount,
        e.now + cfg.path_discovery_time_⟩ :: l, false)

/-- The reverse route to the originator of a RREQ, whose hop count has been increased. -/
def reverseRoute (t : AODV_RtTable) (src_ip : Addr) (my_rreq : RREQ_msg) : AODV_RtTable :=
  let minimalLifetime := e.now + 2 * cfg.net_traversal_time_ -
    2 * my_rreq.rreq_hopcount.toUInt64 * cfg.node_traversal_time_
  t.upsert
    ⟨my_rreq.rreq_src_addr, src_ip, true, my_rreq.rreq_src_seqno, my_rreq.rreq_hopcount, .VALID, [],
      minimalLifetime⟩
    fun rt1 =>
      { rt1 with
        rt_nexthop := src_ip
        rt_seqno :=
          if rt1.rt_valid_dst_seqno then
            if my_rreq.rreq_src_seqno > rt1.rt_seqno then my_rreq.rreq_src_seqno else rt1.rt_seqno
          else my_rreq.rreq_src_seqno
        rt_valid_dst_seqno := true
        rt_hopcount := my_rreq.rreq_hopcount
        rt_flags := .VALID
        rt_time := if minimalLifetime > rt1.rt_time then minimalLifetime else rt1.rt_time }

/-- `recv` replies to a RREQ that is for this node or for a destination with a fresh enough route, or
    forwards it. -/
def answerRREQ (s : AODV) (src_ip : Addr) (ttl : UInt8) (my_rreq : RREQ_msg) : AODV :=
  let dst := my_rreq.rreq_dst_addr
  let src := my_rreq.rreq_src_addr
  let forwarded := if ttl - 1 ≠ 0 then s.forwardRREQ my_rreq (ttl - 1) else s
  if dst = s.mip then
    let s :=
      if my_rreq.U = false ∧ my_rreq.rreq_dst_seqno = s.rtable.myOwnSeqno + 1 then
        { s with rtable := s.rtable.incMyOwnSeqno }
      else s
    s.sendRREP cfg dst src src_ip 0 s.rtable.myOwnSeqno cfg.my_route_timeout_
  else
    match s.rtable.rt_get dst, s.rtable.rt_get src with
    | some rt_d, some rt_s =>
      if rt_d.rt_flags = .VALID ∧ rt_d.rt_valid_dst_seqno = true ∧
          rt_d.rt_seqno ≥ my_rreq.rreq_dst_seqno ∧ my_rreq.D = false then
        let s :=
          { s with
            rtable := (s.rtable.updatePrecursorList dst src_ip).updatePrecursorList src
              rt_d.rt_nexthop }
        let s := s.sendRREP cfg dst src src_ip rt_d.rt_hopcount rt_d.rt_seqno (rt_d.rt_time - e.now)
        if my_rreq.G then
          s.sendRREP cfg src dst rt_d.rt_nexthop rt_s.rt_hopcount my_rreq.rreq_src_seqno
            (rt_s.rt_time - e.now)
        else s
      else forwarded
    | _, _ => forwarded

/-- A RREQ that is not a duplicate. -/
def processRREQ (s : AODV) (src_ip : Addr) (ttl : UInt8) (my_rreq : RREQ_msg) : AODV :=
  let my_rreq := { my_rreq with rreq_hopcount := my_rreq.rreq_hopcount + 1 }
  let s := { s with rtable := reverseRoute cfg e s.rtable src_ip my_rreq }
  let s := (s.processBuffered e my_rreq.rreq_src_addr).processBuffered e src_ip
  s.answerRREQ cfg e src_ip ttl my_rreq

/-- A route request arrives. -/
def recvRREQ (s : AODV) (src_ip : Addr) (ttl : UInt8) (my_rreq : RREQ_msg) : AODV :=
  let s := s.updateSimpleRRoute cfg e src_ip
  if my_rreq.rreq_src_addr = s.mip then s
  else
    let (bcache, duplicate) := updateBcache cfg e my_rreq s.bcache
    let s := { s with bcache := bcache }
    if duplicate then s else s.processRREQ cfg e src_ip ttl my_rreq

/-- `recv` of a Hello. -/
def recvHello (s : AODV) (src_ip : Addr) (my_rrep : RREP_msg) : AODV :=
  let rt_time := e.now + my_rrep.rrep_lifetime
  let rt_hopcount := my_rrep.rrep_hopcount + 1
  { s with
    rtable := s.rtable.upsert
      ⟨my_rrep.rrep_dst_addr, src_ip, true, my_rrep.rrep_dst_seqno, rt_hopcount, .VALID, [], rt_time⟩
      fun r =>
        { r with
          rt_nexthop := src_ip
          rt_valid_dst_seqno := true
          rt_seqno := my_rrep.rrep_dst_seqno
          rt_hopcount := rt_hopcount
          rt_flags := .VALID
          rt_time := rt_time }
    nei_list := Nei_entry.update my_rrep.rrep_dst_addr
      (e.now + cfg.ALLOWED_HELLO_LOSS * cfg.hello_interval_) s.nei_list }

/-- `need_update` of a RREP whose hop count has been increased. -/
def needUpdate (my_rrep : RREP_msg) (r : Rt_entry) : Bool :=
  !r.rt_valid_dst_seqno ||
    (decide (my_rrep.rrep_dst_seqno > r.rt_seqno) && r.rt_valid_dst_seqno) ||
    (decide (my_rrep.rrep_dst_seqno = r.rt_seqno) &&
      (decide (r.rt_flags ≠ .VALID) || decide (my_rrep.rrep_hopcount < r.rt_hopcount)))

/-- The route to the destination of a RREP whose hop count has been increased. -/
def forwardRoute (t : AODV_RtTable) (src_ip : Addr) (my_rrep : RREP_msg) : AODV_RtTable :=
  let rt_time := e.now + my_rrep.rrep_lifetime
  t.upsert
    ⟨my_rrep.rrep_dst_addr, src_ip, true, my_rrep.rrep_dst_seqno, my_rrep.rrep_hopcount, .VALID, [],
      rt_time⟩
    fun r =>
      if needUpdate my_rrep r then
        { r with
          rt_flags := .VALID
          rt_valid_dst_seqno := true
          rt_nexthop := src_ip
          rt_hopcount := my_rrep.rrep_hopcount
          rt_time := rt_time
          rt_seqno := my_rrep.rrep_dst_seqno }
      else r

/-- A RREP on its way to the originator of the RREQ. -/
def passRREP (s : AODV) (src_ip : Addr) (ttl : UInt8) (my_rrep : RREP_msg) : AODV :=
  match s.rtable.rt_get my_rrep.rrep_ori_addr with
  | none => s
  | some rt_s =>
    let rt_time := e.now + cfg.active_route_timeout_
    let t := (s.rtable.updatePrecursorList my_rrep.rrep_dst_addr rt_s.rt_nexthop).updatePrecursorList
      src_ip rt_s.rt_nexthop
    let s :=
      { s with
        rtable := t.write my_rrep.rrep_ori_addr fun r =>
          { r with rt_time := if r.rt_time < rt_time then rt_time else r.rt_time } }
    if ttl - 1 ≠ 0 then s.forwardRREP my_rrep (ttl - 1) else s

/-- `recv` of a RREP that is no Hello. -/
def recvRREP (s : AODV) (src_ip : Addr) (ttl : UInt8) (my_rrep : RREP_msg) : AODV :=
  let s := s.updateSimpleRRoute cfg e src_ip
  let my_rrep := { my_rrep with rrep_hopcount := my_rrep.rrep_hopcount + 1 }
  let s := { s with rtable := forwardRoute e s.rtable src_ip my_rrep }
  let s := (s.processBuffered e my_rrep.rrep_dst_addr).processBuffered e src_ip
  if my_rrep.rrep_ori_addr = s.mip then s else s.passRREP cfg e src_ip ttl my_rrep

/-- A route over the node that reports it unreachable becomes invalid, and is put on the list. -/
def invalidate (src_ip : Addr) (x : AODV_RtTable × List (Addr × UInt32)) (p_tuple : Addr × UInt32) :
    AODV_RtTable × List (Addr × UInt32) :=
  match x.1.rt_get p_tuple.1 with
  | some p_rt =>
    if p_rt.rt_nexthop = src_ip then
      (x.1.write p_tuple.1 fun r => { r with rt_flags := .INVALID }, p_tuple :: x.2)
    else x
  | none => x

/-- `sendRERR` to every precursor of an entry. -/
def warnPrecursors (unr_list : List (Addr × UInt32)) (s : AODV) (p_ue : Addr × UInt32) : AODV :=
  match s.rtable.rt_get p_ue.1 with
  | some p_rt => s.warn cfg unr_list p_rt.rt_preclist
  | none => s

/-- A route error arrives: the routes are given up, and those who use them are warned. -/
def recvRERR (s : AODV) (src_ip : Addr) (unreach : List (Addr × UInt32)) : AODV :=
  let (t, unr_list) := unreach.foldl (invalidate src_ip) (s.rtable, [])
  unr_list.foldl (warnPrecursors cfg unr_list) { s with rtable := t }

/-- `AODV::recv` of a message. -/
def recv (s : AODV) (my_pkt : AODV_packet) : AODV :=
  match my_pkt.msg with
  | .rreq my_rreq => s.recvRREQ cfg e my_pkt.src_ip my_pkt.ttl my_rreq
  | .rrep my_rrep =>
    if my_pkt.dst_ip = BROADCAST then s.recvHello cfg e my_pkt.src_ip my_rrep
    else s.recvRREP cfg e my_pkt.src_ip my_pkt.ttl my_rrep
  | .rerr unreach => s.recvRERR cfg my_pkt.src_ip unreach

/-! ### Handlers of the timers -/

/-- A hello, where the node is on an active route. -/
def sendHello (s : AODV) : AODV :=
  if s.rtable.rt_activeCnt = 0 then s
  else
    s.put (.ctrl BROADCAST ⟨s.mip, BROADCAST, 1, .rrep ⟨0, s.mip, s.rtable.myOwnSeqno, e.addr,
      cfg.ALLOWED_HELLO_LOSS * cfg.hello_interval_⟩⟩)

/-- What `RTTimer` leaves of an entry. -/
def expire (r : Rt_entry) : Option Rt_entry :=
  match r.rt_flags with
  | .VALID =>
    if r.rt_time < e.now then
      some { r with rt_flags := .INVALID, rt_time := e.now + cfg.delete_period_ }
    else some r
  | .INVALID => if r.rt_time < e.now then none else some r
  | .REPAIRABLE => some r
  | .BEING_REPAIRED => some r

/-- The timer of the routes. -/
def RTTimer (s : AODV) : AODV :=
  { s with rtable := { s.rtable with next := s.rtable.next.filterMap (expire cfg e) } }

/-- The packets of a buffer, freed. -/
def freeAll (s : AODV) (buffer_list : List Data) : AODV :=
  buffer_list.foldl (fun s p => s.put (.freed p)) s

/-- The loop of `RREQ_retry` over `ctrl_table`, and what it leaves there. -/
def retry : List Ctrl_entry → AODV → AODV × List Ctrl_entry
  | [], s => (s, [])
  | c :: l, s =>
    if c.rreq_lifetime ≤ e.now then
      if c.rreq_retries < cfg.RREQ_RETRIES then
        if s.acc_rreq ≤ cfg.RREQ_RATELIMIT then
          let s := s.sendRREQ cfg e c.dst_ip cfg.NET_DIAMETER
          let (s, l) := retry l { s with acc_rreq := s.acc_rreq + 1 }
          (s, { c with
            rreq_retries := c.rreq_retries + 1
            rreq_lifetime := e.now + cfg.net_traversal_time_ } :: l)
        else
          let (s, l) := retry l s
          (s, c :: l)
      else retry l (s.freeAll c.buffer_list)
    else
      let (s, l) := retry l s
      (s, c :: l)

/-- The routes over a broken link, made invalid, and the list of them, the last one first. -/
def breakLink (t : AODV_RtTable) (brokenlink_node : Addr) :
    AODV_RtTable × List (Addr × UInt32) :=
  let break_ (r : Rt_entry) : Rt_entry :=
    if r.rt_nexthop = brokenlink_node ∧ r.rt_flags = .VALID then
      { r with
        rt_seqno := r.rt_seqno + 1
        rt_flags := .INVALID
        rt_time := e.now + cfg.delete_period_ }
    else r
  let t : AODV_RtTable := ⟨break_ t.rt_head, t.next.map break_⟩
  let unr_list := t.entries.filter fun r => decide (r.rt_nexthop = brokenlink_node)
  (t, (unr_list.map fun r => (r.rt_dst, r.rt_seqno)).reverse)

/-- A local repair that has failed. -/
def abandon (s : AODV) (c : LocalRepair_entry) : AODV :=
  let t := s.rtable.write c.dst_ip fun r =>
    { r with rt_flags := .INVALID, rt_seqno := r.rt_seqno - 1 }
  let s := { s with rtable := t }.freeAll c.buffer_list
  if c.brokenlink_node ≠ NO_USE then
    let (t, unr_list) := breakLink cfg e s.rtable c.brokenlink_node
    let s := { s with rtable := t }
    if s.acc_rerr < cfg.RERR_RATELIMIT then
      { s.bcastRERR unr_list with acc_rerr := s.acc_rerr + 1 }
    else s
  else s

/-- The loop of `RREQ_retry` over `local_repair_table`. -/
def retryRepairs : List LocalRepair_entry → AODV → AODV × List LocalRepair_entry
  | [], s => (s, [])
  | c :: l, s =>
    if c.local_repair_lifetime ≤ e.now then retryRepairs l (s.abandon cfg e c)
    else
      let (s, l) := retryRepairs l s
      (s, c :: l)

/-- The timer of the route requests. -/
def RREQ_retry (s : AODV) : AODV :=
  let (s, ctrl_table) := retry cfg e s.ctrl_table s
  let (s, local_repair_table) := retryRepairs cfg e s.local_repair_table
    { s with ctrl_table := ctrl_table }
  { s with local_repair_table := local_repair_table }

/-- The timer of the broadcast cache. -/
def CheckRecentRREQ (s : AODV) : AODV :=
  { s with bcache := s.bcache.filter fun b => !decide (b.lifetime < e.now) }

/-- The timer of the counts of requests and errors. -/
def ClearAccRREQ_RERR (s : AODV) : AODV := { s with acc_rreq := 0, acc_rerr := 0 }

/-- The timer of the link failures. -/
def CheckLinkFailList (s : AODV) : AODV :=
  { s with link_fail_list := s.link_fail_list.filter fun l => !decide (l.lifetime < e.now) }

end AODV

/-! ## Calls -/

/-- The handlers that `init` gives to timers. -/
inductive Handler where
  | sendHello
  | RTTimer
  | RREQ_retry
  | CheckRecentRREQ
  | ClearAccRREQ_RERR
  | CheckLinkFailList
  deriving DecidableEq, Repr

/-- What a handler does before it starts its timer again. -/
def Handler.body (cfg : Config) (e : Env) (s : AODV) : Handler → AODV
  | .sendHello => s.sendHello cfg e
  | .RTTimer => s.RTTimer cfg e
  | .RREQ_retry => s.RREQ_retry cfg e
  | .CheckRecentRREQ => s.CheckRecentRREQ e
  | .ClearAccRREQ_RERR => s.ClearAccRREQ_RERR
  | .CheckLinkFailList => s.CheckLinkFailList e

/-- What the modules above and below call. -/
inductive Call where
  | recv (my_pkt : AODV_packet)
  | recvData (pkt : Data)
  | send (pkt : Data)
  | push
  | LinkLayerCall (pkt : Data)
  deriving DecidableEq, Repr

/-- The module after a call. -/
def AODV.call (cfg : Config) (e : Env) (s : AODV) : Call → AODV
  | .recv my_pkt => s.recv cfg e my_pkt
  | .recvData pkt => s.recvData cfg e pkt
  | .send pkt => s.send cfg e pkt
  | .push => s.push
  | .LinkLayerCall pkt => s.LinkLayerCall cfg e pkt

/-! ## Fresh routes -/

/-- No number of an entry goes down, and no valid entry gets a longer route of the same number. -/
def AODV_RtTable.Fresher (t t' : AODV_RtTable) : Prop :=
  ∀ dst r r', t.rt_get dst = some r → t'.rt_get dst = some r' →
    r.rt_seqno ≤ r'.rt_seqno ∧
      (r.rt_flags = .VALID → r'.rt_seqno = r.rt_seqno → r'.rt_hopcount ≤ r.rt_hopcount)

/-- A route that may take the place of the entry. -/
def Rt_entry.Admits (r : Rt_entry) (rt_seqno : UInt32) (rt_hopcount : UInt8) : Prop :=
  r.rt_seqno ≤ rt_seqno ∧ (r.rt_flags = .VALID → rt_seqno = r.rt_seqno → rt_hopcount ≤ r.rt_hopcount)

namespace AODV

/-- The RREQ is not of this node and no duplicate. -/
def Processes (s : AODV) (my_rreq : RREQ_msg) : Prop :=
  my_rreq.rreq_src_addr ≠ s.mip ∧ (checkRREQ my_rreq s.bcache).2 = false

/-- The RREQ, when it is processed, increments the number of this node. -/
def Increments (s : AODV) (my_rreq : RREQ_msg) : Prop :=
  my_rreq.rreq_dst_addr = s.mip ∧ my_rreq.U = false ∧
    my_rreq.rreq_dst_seqno = s.rtable.myOwnSeqno + 1

instance (s : AODV) (my_rreq : RREQ_msg) : Decidable (s.Processes my_rreq) :=
  inferInstanceAs (Decidable (_ ∧ _))

instance (s : AODV) (my_rreq : RREQ_msg) : Decidable (s.Increments my_rreq) :=
  inferInstanceAs (Decidable (_ ∧ _))

/-- The entry of the previous hop, unless it is written again, is no route of no hops; the one of the
    originator has no higher number that is not valid, and no fewer hops for a number that the RREQ
    does not exceed; this node's number does not wrap. -/
structure AdmitsRREQ (s : AODV) (src_ip : Addr) (my_rreq : RREQ_msg) : Prop where
  prevhop : ¬ (s.Processes my_rreq ∧
      (my_rreq.rreq_src_addr = src_ip ∨ s.Increments my_rreq ∧ src_ip = s.mip)) →
    ∀ r ∈ s.rtable.rt_get src_ip, r.rt_flags = .VALID → 1 ≤ r.rt_hopcount
  originator : s.Processes my_rreq → ∀ r ∈ s.rtable.rt_get my_rreq.rreq_src_addr,
    (r.rt_valid_dst_seqno = true ∨ r.rt_seqno ≤ my_rreq.rreq_src_seqno) ∧
      (r.rt_flags = .VALID → my_rreq.rreq_src_seqno ≤ r.rt_seqno →
        my_rreq.rreq_hopcount + 1 ≤ r.rt_hopcount)
  own : s.Processes my_rreq → s.Increments my_rreq →
    s.rtable.myOwnSeqno ≤ s.rtable.myOwnSeqno + 1

/-- The same for a RREP: the entry of its destination, if its number is not valid, admits the route. -/
structure AdmitsRREP (s : AODV) (src_ip : Addr) (my_rrep : RREP_msg) : Prop where
  prevhop : ∀ r ∈ s.rtable.rt_get src_ip,
    (my_rrep.rrep_dst_addr = src_ip → r.rt_valid_dst_seqno = true ∧
      my_rrep.rrep_dst_seqno ≤ r.rt_seqno ∧
      (my_rrep.rrep_dst_seqno = r.rt_seqno → my_rrep.rrep_hopcount + 1 ≠ 0)) →
    r.rt_flags = .VALID → 1 ≤ r.rt_hopcount
  destination : ∀ r ∈ s.rtable.rt_get my_rrep.rrep_dst_addr, r.rt_valid_dst_seqno = false →
    r.Admits my_rrep.rrep_dst_seqno (my_rrep.rrep_hopcount + 1)

/-- The routes that a message writes may take the places of the entries. -/
def AdmitsMsg (s : AODV) (my_pkt : AODV_packet) : Prop :=
  match my_pkt.msg with
  | .rreq my_rreq => s.AdmitsRREQ my_pkt.src_ip my_rreq
  | .rrep my_rrep =>
    if my_pkt.dst_ip = BROADCAST then
      ∀ r ∈ s.rtable.rt_get my_rrep.rrep_dst_addr,
        r.Admits my_rrep.rrep_dst_seqno (my_rrep.rrep_hopcount + 1)
    else s.AdmitsRREP my_pkt.src_ip my_rrep
  | .rerr _ => True

end AODV

/-! ## Duplicates -/

/-- A copy of a RREQ that comes in. -/
structure Copy where
  env : Env
  src_ip : Addr
  ttl : UInt8
  my_rreq : RREQ_msg

namespace AODV

/-- The node after copies of RREQs, in this order. -/
def recvAll (cfg : Config) (s : AODV) (cs : List Copy) : AODV :=
  cs.foldl (fun s c => s.recvRREQ cfg c.env c.src_ip c.ttl c.my_rreq) s

/-- After the copies `cs` a RREQ is processed if it is not the node's own and has fewer hops than every
    copy of it. -/
def ProcessesShorter (cfg : Config) (s : AODV) (cs : List Copy) (m : RREQ_msg) : Prop :=
  (s.recvAll cfg cs).Processes m ↔ m.rreq_src_addr ≠ s.mip ∧
    ∀ c ∈ cs, c.my_rreq.rreq_src_addr = m.rreq_src_addr → c.my_rreq.rreq_id = m.rreq_id →
      m.rreq_hopcount < c.my_rreq.rreq_hopcount

/-- The first copy of a RREQ of an originator. -/
def firstOf (rreq_src_addr : Addr) (cs : List Copy) : Option Copy :=
  cs.find? fun c => decide (c.my_rreq.rreq_src_addr = rreq_src_addr)

/-- After the copies `cs` a RREQ is not processed if it is the node's own or its originator has sent
    a newer one, it is processed if it is newer than all of its originator, and one with the id of the
    first of its originator, where none is newer, is processed if it has fewer hops than every copy of
    it. -/
structure Suppresses (cfg : Config) (s : AODV) (cs : List Copy) (m : RREQ_msg) : Prop where
  own : m.rreq_src_addr = s.mip → ¬ (s.recvAll cfg cs).Processes m
  older : (∃ c ∈ cs, c.my_rreq.rreq_src_addr = m.rreq_src_addr ∧ c.my_rreq.rreq_id > m.rreq_id) →
    ¬ (s.recvAll cfg cs).Processes m
  newer : m.rreq_src_addr ≠ s.mip →
    (∀ c ∈ cs, c.my_rreq.rreq_src_addr = m.rreq_src_addr → c.my_rreq.rreq_id < m.rreq_id) →
    (s.recvAll cfg cs).Processes m
  same : m.rreq_src_addr ≠ s.mip →
    (∀ c ∈ firstOf m.rreq_src_addr cs, c.my_rreq.rreq_id = m.rreq_id) →
    (∀ c ∈ cs, c.my_rreq.rreq_src_addr = m.rreq_src_addr → c.my_rreq.rreq_id ≤ m.rreq_id) →
    ((s.recvAll cfg cs).Processes m ↔ ∀ c ∈ cs, c.my_rreq.rreq_src_addr = m.rreq_src_addr →
      c.my_rreq.rreq_id = m.rreq_id → m.rreq_hopcount < c.my_rreq.rreq_hopcount)

end AODV

end Aodv
